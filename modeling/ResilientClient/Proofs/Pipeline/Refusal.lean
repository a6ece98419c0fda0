/-
Refused bodies. An execution that needs a body for the second time is refused it, and then nothing more is done
for the invocation: no time passes, no breaker counts anything, no collaborator is asked again, and the failure
is handed through all layers as it is. This is a rule for every stage with two kinds of modes, before and after a
refusal (`refusals`), and each layer abides by it because the service inside does (`Serves`).
-/
import ResilientClient.Proofs.Client.Build
import ResilientClient.Proofs.Client.Invocation
import ResilientClient.Proofs.Pipeline.Ledger
import ResilientClient.Proofs.Pipeline.Noting

open ResilientClient.Fiber

namespace ResilientClient

variable {ε δ σ α β : Type}

/-! ## Winding up -/

/-- The breaker but for the trials that are under way. -/
def Breaker.withoutTrials (b : Breaker) : Breaker := { b with trials := 0 }

theorem Breaker.withoutTrials_ignored (b : Breaker) (t : Instant) (trial : Bool) :
    (b.report t trial .ignored).1.withoutTrials = b.withoutTrials := by
  unfold report releaseTrial withoutTrials
  dsimp only
  split
  · split <;> rfl
  · rfl

/-- A failure that is ignored is not counted by any breaker. -/
theorem BreakerRegistry.report_ignored (r : BreakerRegistry) (permit : Permit) (t : Instant) :
    (r.report permit t .ignored).2 = [] ∧ ∀ key,
      ((r.report permit t .ignored).1.get? key).map Breaker.withoutTrials =
        (r.get? key).map Breaker.withoutTrials := by
  unfold report
  cases hget : r.get? permit.key with
  | none => exact ⟨rfl, fun _ => rfl⟩
  | some b =>
    refine ⟨rfl, fun key => ?_⟩
    rw [get?_replace, Option.map_map]
    by_cases hkey : key = permit.key
    · rw [hkey, hget]
      simp [b.withoutTrials_ignored]
    · cases r.get? key with
      | none => rfl
      | some other => simp [hkey]

/-- What is still noted of the failure that ends an invocation. -/
inductive Occurrence.Closing (e : Error) : Occurrence → Prop
  | answered (request : Request) : Closing e (.answered request (.error e))
  | ignored (permit : Permit) : Closing e (.reported permit .ignored)
  | told {listeners : List Listener} {method : String} {elapsed : Nat} {o : Occurrence} :
      o ∈ World.told listeners (.errorReceived method e elapsed) → Closing e o

/-- Of a failure nothing is done but to pass it on: no collaborator is asked, and no breaker counts it. -/
structure WindsUp (e : Error) (s s' : World ε) : Prop where
  outside : s'.outside = s.outside
  breakers : ∀ key, (s'.breakers.get? key).map Breaker.withoutTrials = (s.breakers.get? key).map Breaker.withoutTrials
  past : ∃ os : List Occurrence, (∀ o ∈ os, o.Closing e) ∧ s'.past = os.reverse ++ s.past

/-! ## The rule -/

/-- The steps of an invocation whose executions open bodies of a kind: before one is refused, and after one was
refused to the method of a key. -/
inductive Refusal (kind : Opening → Prop) :
    Option String → World (Ledger δ) → World (Ledger δ) → Option String → Prop
  | aside {s s' : World (Ledger δ)} : Ledger.Aside s.outside s'.outside → Refusal kind none s s' none
  | handed {s s' : World (Ledger δ)} {opening : Opening} {items : BodyStream} : kind opening →
      Ledger.Opens opening s.outside s'.outside → opening.result = .ok items → Refusal kind none s s' none
  | refused {s s' : World (Ledger δ)} {opening : Opening} {e : Error} : kind opening →
      Ledger.Opens opening s.outside s'.outside → opening.result = .error e →
      Refusal kind none s s' (some opening.method)
  | closing {s s' : World (Ledger δ)} {method : String} : WindsUp (.bodyConsumed method) s s' →
      Refusal kind (some method) s s' (some method)

/-- After a refusal nothing is waited for. -/
def refusals (kind : Opening → Prop) : Rule (World (Ledger δ)) (Option String) := ⟨Refusal kind, (· = none)⟩

/-- After a refusal the end is its failure. -/
def Passes (failed : Error → α) : Option String → α → Prop :=
  fun refused a => ∀ method, refused = some method → a = failed (.bodyConsumed method)

/-- No body is opened for an execution. -/
def Apart (s s' : World (Ledger δ)) : Prop := Ledger.Aside s.outside s'.outside

section Rules

variable {kind : Opening → Prop} {failed : Error → α} {m : Option String} {s : World (Ledger δ)}

theorem Refusal.onRecord {m m' : Option String} {s s' : World (Ledger δ)} (h : Refusal kind m s s' m') :
    Ledger.OnRecord s.outside s'.outside := by
  cases h with
  | aside haside => exact haside.onRecord
  | handed _ hopens _ => exact .inr ⟨_, hopens⟩
  | refused _ hopens _ => exact .inr ⟨_, hopens⟩
  | closing hconcludes => exact .inl (hconcludes.outside ▸ Ledger.keeps_refl _)

theorem passes_none (a : α) : Passes failed none a := fun _ h => nomatch h

theorem Passes.eq_none_of_ok {a : α} (h : Passes .error m (.ok a : Except Error α)) : m = none := by
  cases m with
  | none => rfl
  | some method => cases h method rfl

theorem Passes.error {e : Error} (h : Passes .error m (.error e : Except Error α)) :
    Passes .error m (.error e : Except Error β) := by
  rintro method rfl
  cases h method rfl
  rfl

/-- What happens apart from executions is not ruled. -/
theorem Fiber.Obeys.apart {x : Stage (Ledger δ) α} (h : Obeys Apart x) (s : World (Ledger δ)) :
    Abides (refusals kind) (fun m _ => m = none) x none s :=
  Obeys.abides h (fun _ _ h => Refusal.aside h) rfl s

theorem Fiber.Obeys.passes {x : Stage (Ledger δ) α} (h : Obeys Apart x) (s : World (Ledger δ)) :
    Abides (refusals kind) (Passes failed) x none s :=
  h.apart s |>.ending fun _ a hm => hm ▸ passes_none a

/-- After a stage of this kind the rest is still before a refusal. -/
theorem Fiber.Obeys.then_abides {ends : Option String → β → Prop} {x : Stage (Ledger δ) α} (h : Obeys Apart x)
    {f : α → Stage (Ledger δ) β} (hf : ∀ a s, Abides (refusals kind) ends (f a) none s) (s : World (Ledger δ)) :
    Abides (refusals kind) ends (x.andThen f) none s :=
  abides_andThen (h.apart s) fun m a s hm => by obtain rfl : m = none := hm; exact hf a s

theorem abides_closing {method : String} {os : List Occurrence}
    (hos : ∀ o ∈ os, o.Closing (.bodyConsumed method)) :
    Abides (refusals kind) (fun m _ => m = some method) (Stage.note os) (some method) s :=
  abides_modify ⟨_, Refusal.closing ⟨rfl, fun _ => rfl, os, hos, rfl⟩, rfl⟩

end Rules

/-! ## Stages apart from executions -/

section Apart

variable {s : World (Ledger δ)}

theorem apart_modifyGet {f : Instant → World (Ledger δ) → α × World (Ledger δ)}
    (h : ∀ t s, (f t s).2.outside = s.outside) : Obeys Apart (modifyGet f) :=
  obeys_modifyGet fun t s => .inl (h t s ▸ Ledger.keeps_refl _)

/-- Whatever is noted, and whatever collaborators open by the way. -/
theorem noting_apart :
    Pipeline.Noting (fun _ => True) Ledger.Aside (Apart : World (Ledger δ) → World (Ledger δ) → Prop) where
  note s _ _ := .inl (Ledger.keeps_refl s.outside)
  work _ _ h := h

theorem apart_note (os : List Occurrence) : Obeys Apart (Stage.note os : Stage (Ledger δ) Unit) :=
  noting_apart.notes fun _ _ => trivial

theorem apart_sleep (d : Duration) : Obeys Apart (Fiber.sleep d : Stage (Ledger δ) Unit) :=
  obeys_sleep noting_apart.refl d

theorem apart_outside {work : Fiber (Outside (Ledger δ)) α} (h : Obeys Ledger.Aside work) :
    Obeys Apart (Stage.outside work) :=
  noting_apart.outside h

end Apart

/-! ## Executions -/

/-- But for executions a transport opens bodies by the way only. -/
structure Executor.Aside (executor : Executor (Ledger δ)) : Prop where
  before : ∀ request, Obeys Ledger.Aside (executor.before request)
  work : ∀ request wire, Obeys Ledger.Aside (executor.work request wire)

/-- The opening is for an attempt at a method. -/
def Opening.IsFor (interceptors : List Interceptor) (endpoint : Endpoint) (args : List Argument)
    (opening : Opening) : Prop :=
  opening.executed = true ∧ ∃ call request, call.endpoint = endpoint ∧ call.args = args ∧
    Pipeline.prepare interceptors call = .ok request ∧ opening.body = request.body ∧ opening.method = request.method

namespace Pipeline

section Executions

variable {kind : Opening → Prop} {executor : Executor (Ledger δ)} {request : Request} {s : World (Ledger δ)}

theorem abides_openWire (hkind : ∀ result, kind ⟨request.body, request.method, true, result⟩) :
    Abides (refusals kind) (Passes .error) (Stage.outside (Ledger.openWire request)) none s := by
  intro _ _
  have hopens := Ledger.opens_openWire request s.outside
  cases hwire : (request.toWire s.outside.opened).1 with
  | error e =>
    have hresult : (request.body.open? request.method s.outside.opened).1 = .error e := by
      rw [← (request.toWire_eq _).1, hwire]
      rfl
    obtain rfl := RequestBody.eq_bodyConsumed_of_open? hresult
    refine ⟨some request.method, Refusal.refused (hkind _) hopens (by rw [hwire]; rfl), ?_⟩
    rintro method ⟨⟩
    rfl
  | ok wire => exact ⟨none, Refusal.handed (hkind _) hopens (by rw [hwire]; rfl), passes_none _⟩

theorem abides_transport (h : executor.Aside) (hkind : ∀ result, kind ⟨request.body, request.method, true, result⟩) :
    Abides (refusals kind) (Passes .error) (Stage.outside (executor.transport Ledger.openWire request)) none s := by
  unfold Executor.transport Stage.outside
  rw [zoom_andThen]
  refine (apart_outside (h.before request)).then_abides (fun result s => ?_) s
  cases result with
  | error e => exact passes_none _
  | ok _ =>
    dsimp only
    rw [zoom_andThen]
    refine abides_andThen (abides_openWire hkind) fun m wire s hm => ?_
    cases wire with
    | error e => exact hm.error
    | ok wire =>
      obtain rfl := hm.eq_none_of_ok
      exact (apart_outside (h.work request wire)).passes s

end Executions

/-! ## Stages of an attempt -/

section Attempts

variable {kind : Opening → Prop} {m : Option String} {s : World (Ledger δ)}

/-- A remark about a failure is allowed before a refusal, and after it if the failure is that of the refusal. -/
theorem abides_remark {e : Error} (h : Passes .error m (.error e : Outcome)) {os : List Occurrence}
    (hos : ∀ o ∈ os, o.Closing e) : Abides (refusals kind) (fun m' _ => m' = m) (Stage.note os) m s := by
  cases m with
  | none => exact (apart_note os).apart s
  | some method =>
    cases h method rfl
    exact abides_closing hos

theorem abides_send {exchange : Exchange (Ledger δ)} {executor : Executor (Ledger δ)}
    (htransport : exchange.transport = executor.transport Ledger.openWire) (h : executor.Aside) {request : Request}
    (hkind : ∀ result, kind ⟨request.body, request.method, true, result⟩) :
    Abides (refusals kind) (Passes .error) (send exchange request) none s := by
  unfold send
  rw [htransport]
  refine (apart_note _).then_abides (fun _ s => ?_) s
  refine (apart_note _).then_abides (fun _ s => ?_) s
  refine Obeys.then_abides obeys_now (fun started s => ?_) s
  refine abides_andThen (abides_transport h hkind) fun m answer s hm => ?_
  cases answer with
  | error e =>
    refine abides_andThen (abides_remark hm fun o ho => ?_) fun m' _ s hm' => ?_
    · obtain rfl := List.mem_singleton.1 ho
      exact .answered request
    · obtain rfl : m' = m := hm'
      exact hm
  | ok response =>
    obtain rfl := hm.eq_none_of_ok
    refine Obeys.passes ?_ s
    exact obeys_andThen (apart_note _) fun _ => obeys_andThen obeys_now fun _ =>
      obeys_andThen (apart_note _) fun _ => obeys_done _

/-- Calls of a method with its arguments abide by the rule. -/
def Serves (kind : Opening → Prop) (endpoint : Endpoint) (args : List Argument) (service : Service (Ledger δ)) : Prop :=
  ∀ call s, call.endpoint = endpoint → call.args = args →
    Abides (refusals kind) (Passes .error) (service call) none s

variable {endpoint : Endpoint} {args : List Argument} {inner : Service (Ledger δ)}

theorem serves_executing {exchange : Exchange (Ledger δ)} {executor : Executor (Ledger δ)}
    (htransport : exchange.transport = executor.transport Ledger.openWire) (h : executor.Aside)
    (hhandler : ∀ method response, Obeys Ledger.Aside (exchange.statusHandler.decode method response)) :
    Serves (Opening.IsFor exchange.interceptors endpoint args) endpoint args (executing exchange) := by
  rintro call s rfl rfl
  unfold executing
  split
  · exact passes_none _
  · rename_i request hrequest
    have hkind : ∀ result, Opening.IsFor exchange.interceptors call.endpoint call.args
        ⟨request.body, request.method, true, result⟩ := fun _ => ⟨rfl, call, request, rfl, rfl, hrequest, rfl, rfl⟩
    refine abides_andThen (abides_send htransport h hkind) fun m answer s hm => ?_
    cases answer with
    | error e => exact hm
    | ok response =>
      obtain rfl := hm.eq_none_of_ok
      exact (noting_apart.classify hhandler call response).passes s

/-! ## Layers -/

/-- An attempt is cut off only before a refusal. -/
theorem abides_limited {limit : Option Duration} {method : String} {work : Stage (Ledger δ) Outcome}
    (h : Abides (refusals kind) (Passes .error) work none s) :
    Abides (refusals kind) (Passes .error) (limited limit method work) none s := by
  cases limit with
  | none => exact h
  | some limit =>
    refine abides_andThen (abides_within h) fun m result s hm => ?_
    cases result with
    | some outcome => exact hm
    | none =>
      obtain rfl : m = none := hm
      exact passes_none _

/-- Whatever else happens to the world, if its collaborators are left as they are. -/
theorem Refusal.undone {s s' s'' : World (Ledger δ)} (h : Refusal kind none s s' none)
    (hundone : s''.outside = s'.outside) : Refusal kind none s s'' none := by
  cases h with
  | aside haside => exact .aside (hundone ▸ haside)
  | handed hkind hopens hresult => exact .handed hkind (hundone ▸ hopens) hresult

theorem apart_report (permit : Permit) (verdict : Verdict) :
    Obeys Apart (report permit verdict : Stage (Ledger δ) Unit) := apart_modifyGet fun _ _ => rfl

/-- A refused body is no fault of the service: it is ignored by the breaker, and no fallback is asked. -/
theorem abides_conclude {fallback : Option (Fallback (Ledger δ))}
    (h : ∀ f, fallback = some f → ∀ method args cause, Obeys Ledger.Aside (f method args cause)) {call : Call}
    {permit : Permit} {o : Outcome} (ho : Passes .error m o) :
    Abides (refusals kind) (Passes .error) (conclude fallback call permit o) m s := by
  cases m with
  | none =>
    have hrecover : ∀ cause, Obeys Apart (recover fallback call cause) := fun _ =>
      noting_apart.recover h trivial trivial
    exact (obeys_conclude (apart_report permit) hrecover o).passes s
  | some method =>
    obtain rfl := ho method rfl
    have hreport : Abides (refusals kind) (fun m _ => m = some method) (report permit .ignored) (some method) s := by
      refine abides_modifyGet fun t => ?_
      obtain ⟨hnotices, hbreakers⟩ := s.breakers.report_ignored permit t
      refine ⟨some method, Refusal.closing ⟨rfl, hbreakers, [.reported permit .ignored], ?_, ?_⟩, rfl⟩
      · rintro o ho
        obtain rfl := List.mem_singleton.1 ho
        exact .ignored permit
      · simp [World.note, hnotices]
    refine abides_andThen hreport fun m _ s hm => ?_
    obtain rfl : m = some method := hm
    exact ho

theorem serves_guarding {key : String} {limit : Option Duration} {fallback : Option (Fallback (Ledger δ))}
    (h : ∀ f, fallback = some f → ∀ method args cause, Obeys Ledger.Aside (f method args cause))
    (hinner : Serves kind endpoint args inner) : Serves kind endpoint args (guarding key limit fallback inner) := by
  intro call s hendpoint hargs
  unfold guarding
  have hacquire : Obeys Apart (acquire key : Stage (Ledger δ) (Option Permit)) := apart_modifyGet fun _ _ => rfl
  refine hacquire.then_abides (fun answer s => ?_) s
  cases answer with
  | none => exact (apart_note _).then_abides (fun _ s => (noting_apart.recover h trivial trivial).passes s) s
  | some permit =>
    refine abides_andThen (abides_protect (abides_limited (hinner call s hendpoint hargs)) ?_) fun m o s ho =>
      abides_conclude h ho
    rintro m s s' rfl hstep
    exact Refusal.undone hstep rfl

/-- By induction on the attempts that the counter has room for: no instance can do better with a refused body. -/
theorem abides_balanceFrom {resolver : Resolver (Ledger δ)} (h : ∀ service, Obeys Ledger.Aside (resolver service))
    (hinner : Serves kind endpoint args inner) (config : BalancerConfig) {call : Call}
    (hendpoint : call.endpoint = endpoint) (hargs : call.args = args) (service : String) (room : Nat) :
    ∀ (state : BalanceState) (s : World (Ledger δ)),
      Abides (refusals kind) (Passes .error) (balanceFrom config resolver inner call service room state) none s := by
  induction room with
  | zero =>
    intro state s
    unfold balanceFrom
    refine (noting_apart.choose h _ (fun _ => trivial) _).then_abides (fun choice s => ?_) s
    cases choice with
    | error e => exact passes_none _
    | ok server => exact passes_none _
  | succ room ih =>
    intro state s
    unfold balanceFrom
    refine (noting_apart.choose h _ (fun _ => trivial) _).then_abides (fun choice s => ?_) s
    cases choice with
    | error e => exact passes_none _
    | ok server =>
      refine abides_andThen (hinner _ s hendpoint hargs) fun m o s hm => ?_
      cases o with
      | ok response => exact hm
      | error e =>
        cases m with
        | some method =>
          cases hm method rfl
          exact hm
        | none =>
          dsimp only
          split
          · exact passes_none _
          · split
            · exact (apart_note _).then_abides (fun _ s => ih _ s) s
            · split
              · exact (apart_note _).then_abides (fun _ s => ih _ s) s
              · refine (apart_note _).then_abides (fun _ _ => ?_) s
                exact passes_none _

theorem serves_balancing {resolver : Option (Resolver (Ledger δ))}
    (h : ∀ look, resolver = some look → ∀ service, Obeys Ledger.Aside (look service))
    (hinner : Serves kind endpoint args inner) (config : BalancerConfig) :
    Serves kind endpoint args (balancing config resolver inner) := by
  intro call s hendpoint hargs
  unfold balancing
  split
  · exact hinner call s hendpoint hargs
  · split
    · exact passes_none _
    · exact abides_balanceFrom (h _ rfl) hinner config hendpoint hargs _ _ _ s

/-- By induction on the attempts that the counter has room for: the policy takes a refused body for final. -/
theorem abides_attemptsFrom {policy : RetryPolicy}
    (hpolicy : ∀ method attempt, policy (.bodyConsumed method) attempt = .notRetryable) (listeners : List Listener)
    {work : Stage (Ledger δ) Outcome} (hwork : ∀ s, Abides (refusals kind) (Passes .error) work none s)
    (method : String) (room : Nat) : ∀ (attempt : Nat) (s : World (Ledger δ)),
      Abides (refusals kind) (Passes .error) (attemptsFrom policy listeners work method room attempt) none s := by
  induction room with
  | zero => exact fun _ _ => passes_none _
  | succ room ih =>
    intro attempt s
    refine abides_andThen (hwork s) fun m o s hm => ?_
    cases o with
    | ok response => exact hm
    | error e =>
      cases m with
      | some method =>
        cases hm method rfl
        dsimp only
        rw [hpolicy]
        exact hm
      | none =>
        dsimp only
        split
        · exact passes_none _
        · refine (apart_note _).then_abides (fun _ _ => ?_) s
          exact passes_none _
        · refine (apart_note _).then_abides (fun _ s => ?_) s
          refine (apart_note _).then_abides (fun _ s => ?_) s
          exact (apart_sleep _).then_abides (fun _ s => ih _ s) s

end Attempts

end Pipeline

/-! ## Paths -/

/-- The failure of a refused body ends a path: it is returned as it is, without a wait, and nothing but the end of
the path is noted. -/
structure EndsRefused (failed : Error → α) (method : String) (w : Write (World (Ledger δ)))
    (after : List (Write (World (Ledger δ)))) (a : α) (stop : Instant) : Prop where
  result : a = failed (.bodyConsumed method)
  stop : stop = w.time
  after : ∀ v ∈ after, v.time = w.time ∧ WindsUp (.bodyConsumed method) v.before v.after

/-- An execution opens a body of the kind that it should, and if that is a one-shot body that has been opened before,
the path ends there. -/
theorem endsRefused_of_again {kind : Opening → Prop} {failed : Error → α} {x : Stage (Ledger δ) α} {t t' : Instant}
    {s s' : World (Ledger δ)} {before after : List (Write (World (Ledger δ)))} {w : Write (World (Ledger δ))} {a : α}
    {opening : Opening} (h : Abides (refusals kind) (Passes failed) x none s)
    (hends : Ends x t s (before ++ w :: after) a t' s')
    (hopens : Ledger.Opens opening w.before.outside w.after.outside) (hexecuted : opening.executed = true) :
    kind opening ∧ ∀ number items, opening.body = .oneShot number items → number ∈ w.before.outside.opened →
      opening.result = .error (.bodyConsumed opening.method) ∧ EndsRefused failed opening.method w after a t' := by
  obtain ⟨m₁, m₂, y, hstep, hy, hrest⟩ := h.split hends
  have hrefused : ∀ number items, opening.body = .oneShot number items → number ∈ w.before.outside.opened →
      opening.result = .error (.bodyConsumed opening.method) := by
    intro number items hbody hmem
    rw [hopens.result, hbody, RequestBody.open?_oneShot, if_pos hmem]
  cases hstep with
  | aside haside =>
    rcases haside with hkeeps | ⟨opening', haside, hopens'⟩
    · exact (hopens.not_keeps hkeeps).elim
    · rw [hopens.unique hopens', haside] at hexecuted
      cases hexecuted
  | handed hkind hopens' hresult =>
    rw [← hopens.unique hopens'] at hkind hresult
    refine ⟨hkind, fun number items hbody hmem => ?_⟩
    rw [hrefused number items hbody hmem] at hresult
    cases hresult
  | refused hkind hopens' hresult =>
    rw [← hopens.unique hopens'] at hkind hy
    refine ⟨hkind, fun number items hbody hmem => ⟨hrefused number items hbody hmem, ?_⟩⟩
    obtain ⟨hstop, hafter, hend⟩ := hy.at_once hrest nofun fun _ _ _ hstep => by cases hstep; rfl
    refine ⟨hend _ rfl, hstop, fun v hv => ⟨(hafter v hv).1, ?_⟩⟩
    cases (hafter v hv).2 with
    | closing hconcludes => exact hconcludes
  | closing hconcludes => exact (hopens.not_keeps (hconcludes.outside ▸ Ledger.keeps_refl _)).elim

end ResilientClient
