/-
The requests that are sent on a path. Only an attempt sends a request: one, if there is anything to send
(`sentIn_executing`), and behind a breaker the same one or none, whether the attempt ends, is cut off by a time
limit, is rejected, or its failure is passed to a fallback (`sentIn_guarding_eq`). So a journey sends no more
requests than it has attempts (`Journey.sentIn_le`).
-/
import ResilientClient.Proofs.Pipeline.Journey
import ResilientClient.Proofs.Pipeline.Noting

open ResilientClient.Fiber

namespace ResilientClient.Pipeline

variable {ε σ τ α β : Type}

/-! ## Waits that leave a part of the state -/

/-- Whenever the fiber is dropped during a wait, that leaves a part of the state as it is. -/
def DropsKeep (part : σ → τ) : Fiber σ α → Prop
  | .done _ => True
  | .look next => ∀ t s, DropsKeep part (next t s)
  | .store _ next => DropsKeep part next
  | .pause _ drop next => (∀ s, part (drop s) = part s) ∧ DropsKeep part next

section Drops

variable {part : σ → τ}

theorem dropsKeep_andThen {x : Fiber σ α} {f : α → Fiber σ β} (hx : DropsKeep part x)
    (hf : ∀ a, DropsKeep part (f a)) : DropsKeep part (x.andThen f) := by
  induction x with
  | done a => exact hf a
  | look next ih => exact fun t s => ih t s (hx t s)
  | store s next ih => exact ih hx
  | pause wait drop next ih => exact ⟨hx.1, ih hx.2⟩

theorem dropsKeep_zoom {υ : Type} {view : σ → υ} {put : υ → σ → σ} (hput : ∀ p s, part (put p s) = part s)
    (x : Fiber υ α) : DropsKeep part (x.zoom view put) := by
  induction x with
  | done a => trivial
  | look next ih => exact fun t s => ih t (view s)
  | store p next ih => exact fun _ _ => ih
  | pause wait drop next ih => exact ⟨fun s => hput _ s, ih⟩

theorem dropsKeep_modify (f : σ → σ) : DropsKeep part (modify f) := fun _ _ => trivial

theorem dropsKeep_now : DropsKeep part (now : Fiber σ Instant) := fun _ _ => trivial

theorem dropsKeep_sleep (d : Duration) : DropsKeep part (sleep d : Fiber σ Unit) := by
  unfold sleep pauseFor
  split
  · trivial
  · exact ⟨fun _ => rfl, trivial⟩

/-- What a fiber is dropped in on its way. -/
theorem DropsKeep.of_goes {x : Fiber σ α} (h : DropsKeep part x) {wait : Nat} {drop : σ → σ}
    {rest : Fiber σ α} {t t' : Instant} {s s' : σ} {ws : List (Write σ)}
    (hgoes : Goes x t s ws (.pause wait drop rest) t' s') : ∀ s, part (drop s) = part s := by
  generalize hy : Fiber.pause wait drop rest = y at hgoes
  induction hgoes with
  | stay => subst hy; exact h.1
  | look _ ih => exact ih (h _ _) hy
  | store _ ih => exact ih h hy
  | pause _ ih => exact ih h.2 hy

end Drops

/-! ## Requests -/

/-- The requests that are handed to the transport in writes, in order. -/
def sentIn (ws : List (Write (World ε))) : List Request :=
  (gainedIn World.past ws).filterMap Occurrence.sent?

section Requests

variable {t t' : Instant} {s s' : World ε} {us ws : List (Write (World ε))}

@[simp] theorem sentIn_nil : sentIn ([] : List (Write (World ε))) = [] := rfl

@[simp] theorem sentIn_append : sentIn (us ++ ws) = sentIn us ++ sentIn ws := by
  simp [sentIn]

theorem sentIn_of_kept (h : ∀ w ∈ ws, w.after.past = w.before.past) : sentIn ws = [] := by
  rw [sentIn, gainedIn_of_kept h, List.filterMap_nil]

theorem sentIn_note {os : List Occurrence} {u : Unit} (h : Ends (Stage.note os) t s ws u t' s') :
    sentIn ws = os.filterMap Occurrence.sent? := by
  obtain ⟨-, -, rfl⟩ := ends_note h
  simp [sentIn, World.note, gained_append]

/-- A part of a path sends no more than every path that it is the beginning of. -/
theorem sentIn_le_of_goes {x y : Stage ε α} {n : Nat}
    (hends : ∀ ws a t' s', Ends x t s ws a t' s' → (sentIn ws).length ≤ n)
    (h : Goes x t s ws y t' s') : (sentIn ws).length ≤ n := by
  obtain ⟨vs, hrest⟩ := ends_run y t' s'
  have hall := hends _ _ _ _ (h.trans hrest)
  rw [sentIn_append, List.length_append] at hall
  omega

end Requests

/-! ## Stages that send nothing -/

/-- Nothing is sent on any path. -/
def Mute (x : Stage ε α) : Prop := ∀ ⦃t s ws a t' s'⦄, Ends x t s ws a t' s' → sentIn ws = []

theorem mute_done (a : α) : Mute (.done a : Stage ε α) := by
  intro t s ws b t' s' h
  rw [(ends_done.1 h).1, sentIn_nil]

theorem mute_andThen {x : Stage ε α} {f : α → Stage ε β} (hx : Mute x) (hf : ∀ a, Mute (f a)) :
    Mute (x.andThen f) := by
  intro t s ws b t' s' h
  obtain ⟨us, a, t₁, s₁, vs, rfl, hfirst, hrest⟩ := (ends_andThen _ _).1 h
  rw [sentIn_append, hx hfirst, hf a hrest, List.append_nil]

/-- A step in which nothing is sent. -/
def Unsent (s s' : World ε) : Prop := (gained s.past s'.past).filterMap Occurrence.sent? = []

theorem mute_of_unsent {x : Stage ε α} (h : Obeys Unsent x) : Mute x := by
  intro t s ws a t' s' hends
  rw [sentIn, gainedIn, List.filterMap_flatMap]
  exact List.flatMap_eq_nil_iff.2 fun w hw => h.writes hends w hw

/-- Collaborators have no access to the timeline. -/
theorem noting_unsent : Noting (fun o => o.sent? = none) (fun _ _ => True) (Unsent : World ε → World ε → Prop) where
  note s os hos := by
    rw [Unsent, World.note, gained_append, List.reverse_reverse]
    exact List.filterMap_eq_nil_iff.2 hos
  work s o _ := by simp [Unsent]

theorem mute_log (line : TraceLine) : Mute (Stage.log line : Stage ε Unit) := mute_of_unsent (noting_unsent.one rfl)

/-- No request is among what listeners do. -/
theorem sent?_of_mem_told (listeners : List Listener) (event : Event) :
    ∀ o ∈ World.told listeners event, o.sent? = none := by
  intro o ho
  obtain ⟨listener, -, ho⟩ := List.mem_flatMap.1 ho
  cases listener with
  | recorder name => obtain rfl := List.mem_singleton.1 ho; rfl
  | silent => cases ho
  | logger level => obtain ⟨line, -, rfl⟩ := List.mem_map.1 ho; rfl

theorem sent?_told (listeners : List Listener) (event : Event) :
    (World.told listeners event).filterMap Occurrence.sent? = [] :=
  List.filterMap_eq_nil_iff.2 (sent?_of_mem_told listeners event)

theorem mute_tell (listeners : List Listener) (event : Event) :
    Mute (Stage.tell listeners event : Stage ε Unit) :=
  mute_of_unsent (noting_unsent.notes (sent?_of_mem_told listeners event))

theorem mute_choose (look : Resolver ε) (service : String) (server : Option Server) :
    Mute (choose look service server) :=
  mute_of_unsent (noting_unsent.choose (fun _ => obeys_true _) service (fun _ => rfl) server)

theorem mute_classify (exchange : Exchange ε) (call : Call) (response : Response) :
    Mute (classify exchange call response) :=
  mute_of_unsent (noting_unsent.classify (fun _ _ => obeys_true _) call response)

/-- The notices of a breaker and its answer are no requests. -/
theorem unsent_acquire (key : String) : Obeys Unsent (acquire key : Stage ε (Option Permit)) := by
  refine obeys_modifyGet fun t s => ?_
  simp only [Unsent, World.note, gained_append]
  cases (s.breakers.acquire key t).1 with
  | none => simp [Occurrence.sent?]
  | some permit => simp [Occurrence.sent?]

theorem unsent_report (permit : Permit) (verdict : Verdict) :
    Obeys Unsent (report permit verdict : Stage ε Unit) := by
  refine obeys_modifyGet fun t s => ?_
  simp only [Unsent, World.note, gained_append]
  simp [Occurrence.sent?]

theorem mute_acquire (key : String) : Mute (acquire key : Stage ε (Option Permit)) :=
  mute_of_unsent (unsent_acquire key)

theorem mute_report (permit : Permit) (verdict : Verdict) : Mute (report permit verdict : Stage ε Unit) :=
  mute_of_unsent (unsent_report permit verdict)

theorem unsent_recover (fallback : Option (Fallback ε)) (call : Call) (cause : Error) :
    Obeys Unsent (recover fallback call cause) :=
  noting_unsent.recover (fun _ _ _ _ _ => obeys_true _) rfl rfl

theorem mute_recover (fallback : Option (Fallback ε)) (call : Call) (cause : Error) :
    Mute (recover fallback call cause) :=
  mute_of_unsent (unsent_recover fallback call cause)

theorem mute_conclude (fallback : Option (Fallback ε)) (call : Call) (permit : Permit) (o : Outcome) :
    Mute (conclude fallback call permit o) :=
  mute_of_unsent (obeys_conclude (unsent_report permit) (unsent_recover fallback call) o)

/-! ## Attempts -/

section Attempts

variable {exchange : Exchange ε} {call : Call} {t t' : Instant} {s s' : World ε}
  {ws : List (Write (World ε))} {r : Outcome}

theorem sentIn_send {request : Request} (h : Ends (send exchange request) t s ws r t' s') :
    sentIn ws = [request] := by
  obtain ⟨told, _, t₁, s₁, ws₁, rfl, htell, h₁⟩ := (ends_andThen _ _).1 h
  obtain ⟨sent, _, t₂, s₂, ws₂, rfl, hsent, h₂⟩ := (ends_andThen _ _).1 h₁
  have hone : sentIn sent = [request] := sentIn_note hsent
  have hmute : sentIn ws₂ = [] := by
    refine mute_of_unsent (obeys_andThen obeys_now fun _ =>
      obeys_andThen (noting_unsent.outside (obeys_true _)) fun result => ?_) h₂
    cases result with
    | error e => exact obeys_andThen (noting_unsent.one rfl) fun _ => obeys_done _
    | ok response =>
      exact obeys_andThen (noting_unsent.one rfl) fun _ => obeys_andThen obeys_now fun _ =>
        obeys_andThen (noting_unsent.notes (sent?_of_mem_told _ _)) fun _ => obeys_done _
  rw [sentIn_append, sentIn_append, mute_tell _ _ htell, hone, hmute]
  rfl

/-- A request is answered as the transport says. -/
theorem answer_of_send {request : Request} (h : Ends (send exchange request) t s ws r t' s') :
    ∃ t₁ o₁ us answer t₂ o₂, Ends (exchange.transport request) t₁ o₁ us answer t₂ o₂ ∧
      r = answer.map (·.withRequest request) := by
  obtain ⟨us₁, _, t₁, s₁, vs₁, -, -, h₁⟩ := (ends_andThen _ _).1 h
  obtain ⟨us₂, _, t₂, s₂, vs₂, -, -, h₂⟩ := (ends_andThen _ _).1 h₁
  obtain ⟨us₃, _, t₃, s₃, vs₃, -, -, h₃⟩ := (ends_andThen _ _).1 h₂
  obtain ⟨us₄, answer, t₄, s₄, vs₄, -, htransport, h₄⟩ := (ends_andThen _ _).1 h₃
  refine ⟨t₃, _, _, answer, t₄, _, (ends_outside htransport).1, ?_⟩
  cases answer with
  | error e =>
    obtain ⟨us₅, _, t₅, s₅, vs₅, -, -, h₅⟩ := (ends_andThen _ _).1 h₄
    exact (ends_done.1 h₅).2.1
  | ok response =>
    obtain ⟨us₅, _, t₅, s₅, vs₅, -, -, h₅⟩ := (ends_andThen _ _).1 h₄
    obtain ⟨us₆, _, t₆, s₆, vs₆, -, -, h₆⟩ := (ends_andThen _ _).1 h₅
    obtain ⟨us₇, _, t₇, s₇, vs₇, -, -, h₇⟩ := (ends_andThen _ _).1 h₆
    exact (ends_done.1 h₇).2.1

/-- An attempt sends its request, if it comes to one. -/
theorem sentIn_executing (h : Ends (executing exchange call) t s ws r t' s') :
    sentIn ws = (prepare exchange.interceptors call).toOption.toList := by
  unfold executing at h
  cases hrequest : prepare exchange.interceptors call with
  | error e =>
    rw [hrequest] at h
    exact mute_done _ h
  | ok request =>
    rw [hrequest] at h
    obtain ⟨us, o, t₁, s₁, vs, rfl, hsend, hrest⟩ := (ends_andThen _ _).1 h
    have hmute : sentIn vs = [] := by
      cases o with
      | error e => exact mute_done _ hrest
      | ok response => exact mute_classify _ _ _ hrest
    rw [sentIn_append, sentIn_send hsend, hmute]
    rfl

theorem sentIn_executing_le (h : Ends (executing exchange call) t s ws r t' s') :
    (sentIn ws).length ≤ 1 := by
  rw [sentIn_executing h]
  cases (prepare exchange.interceptors call).toOption <;> simp

/-! ## Attempts behind a breaker -/

/-- A part of the state that collaborators have no access to. -/
def Sheltered (part : World ε → τ) : Prop := ∀ (o : Outside ε) (w : World ε), part { w with outside := o } = part w

section Waits

variable {part : World ε → τ}

theorem dropsKeep_outside (hpart : Sheltered part) (work : Fiber (Outside ε) α) :
    DropsKeep part (Stage.outside work) :=
  dropsKeep_zoom hpart work

theorem dropsKeep_readBehind (limit : Nat) (body : BodyStream) : ∀ (chunks : List Bytes) (size : Nat),
    DropsKeep part (BodyStream.readBehind limit chunks size body : Stage ε (Except Error Bytes)) := by
  induction body with
  | nil => exact fun _ _ => trivial
  | cons item rest ih =>
    intro chunks size
    cases item with
    | failure e => trivial
    | pause d => exact dropsKeep_andThen (dropsKeep_sleep d) fun _ => ih chunks size
    | chunk bytes =>
      unfold BodyStream.readBehind
      split
      · trivial
      · exact ih _ _

theorem dropsKeep_send (hpart : Sheltered part) (exchange : Exchange ε) (request : Request) :
    DropsKeep part (send exchange request) := by
  refine dropsKeep_andThen (dropsKeep_modify _) fun _ => dropsKeep_andThen (dropsKeep_modify _) fun _ =>
    dropsKeep_andThen dropsKeep_now fun _ => dropsKeep_andThen (dropsKeep_outside hpart _) fun result => ?_
  cases result with
  | error e => exact dropsKeep_andThen (dropsKeep_modify _) fun _ => trivial
  | ok response =>
    exact dropsKeep_andThen (dropsKeep_modify _) fun _ => dropsKeep_andThen dropsKeep_now fun _ =>
      dropsKeep_andThen (dropsKeep_modify _) fun _ => trivial

theorem dropsKeep_classify (hpart : Sheltered part) (exchange : Exchange ε) (call : Call) (response : Response) :
    DropsKeep part (classify exchange call response) := by
  unfold classify
  split
  · trivial
  · split
    · exact dropsKeep_andThen (dropsKeep_outside hpart _) fun _ => trivial
    · split
      · trivial
      · refine dropsKeep_andThen (dropsKeep_readBehind _ _ _ _) fun result => ?_
        cases result with
        | error e => trivial
        | ok bytes => trivial

theorem dropsKeep_executing (hpart : Sheltered part) (exchange : Exchange ε) (call : Call) :
    DropsKeep part (executing exchange call) := by
  unfold executing
  cases prepare exchange.interceptors call with
  | error e => trivial
  | ok request =>
    refine dropsKeep_andThen (dropsKeep_send hpart exchange request) fun o => ?_
    cases o with
    | error e => trivial
    | ok response => exact dropsKeep_classify hpart exchange call response

end Waits

theorem goes_note_andThen {os : List Occurrence} {f : Unit → Stage ε α} {wait : Nat}
    {drop : World ε → World ε} {rest : Stage ε α}
    (h : Goes ((Stage.note os).andThen f) t s ws (.pause wait drop rest) t' s') :
    ∃ vs, ws = ⟨t, s, s.note os⟩ :: vs ∧ Goes (f ()) t (s.note os) vs (.pause wait drop rest) t' s' := by
  cases h with | look h =>
  cases h with | store h =>
  exact ⟨_, rfl, h⟩

/-- A request is sent before the first wait. -/
theorem mem_sentIn_of_goes_send {request : Request} {f : Outcome → Stage ε α} {wait : Nat}
    {drop : World ε → World ε} {rest : Stage ε α}
    (h : Goes ((send exchange request).andThen f) t s ws (.pause wait drop rest) t' s') :
    request ∈ sentIn ws := by
  rw [send, andThen_assoc] at h
  obtain ⟨us, rfl, hsend⟩ := goes_note_andThen h
  rw [andThen_assoc] at hsend
  obtain ⟨vs, rfl, -⟩ := goes_note_andThen hsend
  simp [sentIn, World.note, gained_append, Occurrence.sent?]

/-- An attempt that waits has sent its request. -/
theorem sentIn_of_goes_executing {wait : Nat} {drop : World ε → World ε} {rest : Stage ε Outcome}
    (h : Goes (executing exchange call) t s ws (.pause wait drop rest) t' s') :
    sentIn ws = (prepare exchange.interceptors call).toOption.toList := by
  obtain ⟨vs, hrest⟩ := ends_run (.pause wait drop rest) t' s'
  have hall := sentIn_executing (h.trans hrest)
  unfold executing at h
  cases hrequest : prepare exchange.interceptors call with
  | error e =>
    rw [hrequest] at h
    cases h
  | ok request =>
    rw [hrequest] at h hall
    rw [sentIn_append] at hall
    -- of the one request of the whole attempt nothing is left for later
    obtain ⟨before, after, hsplit⟩ := List.append_of_mem (mem_sentIn_of_goes_send h)
    have hlength := congrArg List.length hall
    simp only [hsplit, Except.toOption, Option.toList, List.length_append, List.length_cons, List.length_nil] at hlength
    have hnone : before = [] ∧ after = [] := by
      constructor <;> refine List.eq_nil_of_length_eq_zero ?_ <;> omega
    rw [hsplit, hnone.1, hnone.2]
    rfl

/-- An attempt sends its request even if it is cut off. -/
theorem sentIn_limited_eq {limit : Option Duration}
    (h : Ends (limited limit call.method (executing exchange call)) t s ws r t' s') :
    sentIn ws = (prepare exchange.interceptors call).toOption.toList := by
  cases limit with
  | none => exact sentIn_executing h
  | some limit =>
    obtain ⟨us, result, t₁, s₁, vs, rfl, hwithin, hend⟩ := (ends_andThen _ _).1 h
    have hmute : sentIn vs = [] := by
      cases result with
      | none => exact mute_done _ hend
      | some o => exact mute_done _ hend
    rw [sentIn_append, hmute, List.append_nil]
    rcases ends_within _ hwithin with ⟨o, -, hinner, -⟩ |
      ⟨us', wait, drop, rest, t₂, s₂, last, -, hgoes, -, -, rfl, -, -⟩
    · exact sentIn_executing hinner
    · have hdrop : (drop last).past = last.past :=
        (dropsKeep_executing (fun _ _ => rfl) exchange call).of_goes hgoes last
      have hnone : sentIn [(⟨t + waitOf limit, last, drop last⟩ : Write (World ε))] = [] :=
        sentIn_of_kept fun w hw => by obtain rfl := List.mem_singleton.1 hw; exact hdrop
      rw [sentIn_append, hnone, List.append_nil]
      exact sentIn_of_goes_executing hgoes

/-- Behind a breaker an attempt sends its request, unless it is rejected. -/
theorem sentIn_guarding_eq {key : String} {limit : Option Duration} {fallback : Option (Fallback ε)}
    (h : Ends (guarding key limit fallback (executing exchange) call) t s ws r t' s') :
    sentIn ws = [] ∨ sentIn ws = (prepare exchange.interceptors call).toOption.toList := by
  obtain ⟨us, answer, t₁, s₁, vs, rfl, hacquire, hrest⟩ := (ends_andThen _ _).1 h
  rw [sentIn_append, mute_acquire _ hacquire, List.nil_append]
  cases answer with
  | none => exact .inl (mute_andThen (mute_log _) (fun _ => mute_recover _ _ _) hrest)
  | some permit =>
    obtain ⟨us', o, t₂, s₂, vs', rfl, hattempt, hconclude⟩ := (ends_andThen _ _).1 hrest
    rw [sentIn_append, mute_conclude _ _ _ _ hconclude, List.append_nil]
    exact .inr (sentIn_limited_eq ((ends_protect _ _).1 hattempt))

/-- Behind a breaker an attempt sends at most one request. -/
theorem sentIn_guarding {key : String} {limit : Option Duration} {fallback : Option (Fallback ε)}
    (h : Ends (guarding key limit fallback (executing exchange) call) t s ws r t' s') :
    (sentIn ws).length ≤ 1 := by
  rcases sentIn_guarding_eq h with hnone | hone
  · simp [hnone]
  · rw [hone]
    cases (prepare exchange.interceptors call).toOption <;> simp

end Attempts

/-! ## Journeys -/

section Journeys

variable {resolver : Option (Resolver ε)} {inner : Service ε} {legs : List Leg} {t t' : Instant}
  {s s' : World ε} {ws : List (Write (World ε))}

/-- Only attempts send requests. -/
theorem Leg.Made.sentIn_eq_nil {leg : Leg} (h : leg.Made resolver inner t s ws t' s')
    (hleg : leg.outcome? = none) : sentIn ws = [] := by
  cases leg with
  | attempt call o => cases hleg
  | lookup service outcome => obtain ⟨look, -, hlookup⟩ := h; exact mute_choose _ _ _ hlookup
  | log line => exact mute_log _ h
  | tell listeners event => exact mute_tell _ _ h
  | rest delay => exact mute_of_unsent (obeys_sleep noting_unsent.refl delay) h

/-- If an attempt sends at most one request, a journey sends at most one for each of its attempts. -/
theorem Journey.sentIn_le
    (hinner : ∀ call t s ws o t' s', Ends (inner call) t s ws o t' s' → (sentIn ws).length ≤ 1)
    (h : Journey resolver inner legs t s ws t' s') : (sentIn ws).length ≤ attempts legs := by
  induction h with
  | nil => exact Nat.le_refl _
  | @cons leg legs t t₁ t' s s₁ s' us vs hleg _ ih =>
    rw [sentIn_append, List.length_append]
    cases leg with
    | attempt call o =>
      have hone := hinner call t s us o t₁ s₁ hleg
      rw [attempts_attempt]
      omega
    | lookup | log | tell | rest => simpa [hleg.sentIn_eq_nil rfl] using ih

end Journeys

end ResilientClient.Pipeline
