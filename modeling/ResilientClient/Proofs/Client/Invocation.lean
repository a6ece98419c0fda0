/-
Invocations. Whatever a method is invoked for, its call goes through the pipeline once; after that nothing is
done but that the listeners are told, and a failure of the pipeline is returned (`Invokes.remarked`).
-/
import ResilientClient.Client.Method
import ResilientClient.Proofs.Fiber.Abides
import ResilientClient.Proofs.Pipeline.Sending

open ResilientClient.Fiber ResilientClient.Pipeline

namespace ResilientClient.Method

variable {ε α β : Type}

/-- The ways to invoke a method, each with what it makes of a failure of the pipeline. -/
inductive Invokes (m : Method ε) (args : List Argument) : {α : Type} → Stage ε α → (Error → α) → Prop
  | execute : Invokes m args (m.execute args) .error
  | single : Invokes m args (m.invokeSingle args) .error
  | json {β : Type} (decoder : Json.Decoder β) : Invokes m args (m.invokeJson decoder args) .error
  | declared : m.endpoint.returns ≠ .stream → Invokes m args (m.invoke args) .error
  | stream {limit : Option Nat} : limit ≠ some 0 →
      Invokes m args (m.invokeStream args limit) fun e => ([.error e], decide (limit ≠ some 1))
  | ndjson {β : Type} (decoder : Json.Decoder β) {limit : Option Nat} : limit ≠ some 0 →
      Invokes m args (m.invokeNdjson decoder args limit) fun e => [.error e]

/-! ## What hands a response over -/

/-- The write adds to the timeline, but no request. -/
def Remark (w : Write (World ε)) : Prop :=
  ∃ os, os.filterMap Occurrence.sent? = [] ∧ w.after = w.before.note os

theorem Remark.breakers {w : Write (World ε)} (h : Remark w) : w.after.breakers = w.before.breakers := by
  obtain ⟨os, -, hw⟩ := h
  rw [hw]
  rfl

theorem sentIn_of_remarks {ws : List (Write (World ε))} (h : ∀ w ∈ ws, Remark w) : sentIn ws = [] := by
  refine List.filterMap_eq_nil_iff.2 fun o ho => ?_
  obtain ⟨w, hw, ho⟩ := List.mem_flatMap.1 ho
  obtain ⟨os, hos, hafter⟩ := h w hw
  rw [hafter, World.note, gained_append, List.reverse_reverse] at ho
  exact List.filterMap_eq_nil_iff.1 hos o ho

/-- The timeline is added to, but no request. -/
def Remarks (s s' : World ε) : Prop := ∃ os, os.filterMap Occurrence.sent? = [] ∧ s' = s.note os

/-- Nothing is done, or listeners are told an event. -/
def Tells (listeners : List Listener) (s s' : World ε) : Prop :=
  s' = s ∨ ∃ event, s' = s.note (World.told listeners event)

theorem Tells.remarks {listeners : List Listener} {s s' : World ε} (h : Tells listeners s s') : Remarks s s' := by
  rcases h with rfl | ⟨event, rfl⟩
  · exact ⟨[], rfl, rfl⟩
  · exact ⟨_, sent?_told listeners event, rfl⟩

section Tellings

variable (m : Method ε)

theorem tells_tell (listeners : List Listener) (event : Event) :
    Obeys (Tells listeners) (Stage.tell listeners event : Stage ε Unit) :=
  obeys_modify fun _ => .inr ⟨event, rfl⟩

theorem tells_tellFailure (started : Instant) (e : Error) : Obeys (Tells m.listeners) (m.tellFailure started e) :=
  obeys_andThen obeys_now fun _ => tells_tell _ _

theorem tells_element (response : Response) : Obeys (Tells m.listeners) (m.element response) := by
  refine obeys_andThen (BodyStream.obeys_readAll (fun _ => .inl rfl) _ _) fun result => ?_
  cases result with
  | error e => exact obeys_done _
  | ok bytes =>
    dsimp only
    split
    · exact obeys_done _
    · exact obeys_andThen (tells_tell _ _) fun _ => obeys_done _

theorem tells_deliver (started : Instant) (limit : Option Nat) (body : BodyStream) :
    Obeys (Tells m.listeners) (m.deliver started limit body) := by
  fun_induction m.deliver started limit body with
  | case1 => exact obeys_done _
  | case2 => exact obeys_done _
  | case3 limit d rest _ ih => exact obeys_andThen (obeys_sleep (fun _ => .inl rfl) _) fun _ => ih
  | case4 limit bytes rest _ ih =>
    exact obeys_andThen (tells_tell _ _) fun _ => obeys_andThen ih fun _ => obeys_done _
  | case5 => exact obeys_andThen (tells_tellFailure m _ _) fun _ => obeys_done _

theorem tells_deliverLines (decoder : Json.Decoder β) (started : Instant) (line : Bytes)
    (limit : Option Nat) (body : BodyStream) :
    Obeys (Tells m.listeners) (m.deliverLines decoder started line limit body) := by
  fun_induction m.deliverLines decoder started line limit body with
  | case1 => exact obeys_done _
  | case2 => exact obeys_done _
  | case3 _ limit d rest _ ih => exact obeys_andThen (obeys_sleep (fun _ => .inl rfl) _) fun _ => ih
  | case4 _ limit bytes rest _ ih =>
    exact obeys_andThen (tells_tell _ _) fun _ => obeys_andThen (ih _ _) fun _ => obeys_done _
  | case5 => exact obeys_andThen (tells_tellFailure m _ _) fun _ => obeys_done _

end Tellings

/-! ## The shape of an invocation -/

section Shapes

variable {m : Method ε} {args : List Argument} {x : Stage ε α} {failed : Error → α}
  {rest : Instant → Outcome → Stage ε α}

/-- One dispatch, and then `rest`, in which only listeners are told. -/
def Hands (m : Method ε) (args : List Argument) (x : Stage ε α) (rest : Instant → Outcome → Stage ε α) : Prop :=
  x = (now.andThen fun started => (m.dispatch args).andThen (rest started)) ∧
    ∀ started r, Obeys (Tells m.listeners) (rest started r)

/-- What an observed invocation makes of an outcome. -/
def closingOf (m : Method ε) (started : Instant) : Except Error β → Stage ε (Except Error β)
  | .ok b => .done (.ok b)
  | .error e => (m.tellFailure started e).andThen fun _ => .done (.error e)

/-- An observed dispatch, with what is made of a response. -/
theorem hands_observed {use : Outcome → Stage ε (Except Error β)} (htells : ∀ r, Obeys (Tells m.listeners) (use r)) :
    Hands m args (m.observed ((m.dispatch args).andThen use)) fun started r =>
      (use r).andThen (m.closingOf started) := by
  refine ⟨?_, fun started r => obeys_andThen (htells r) fun result => ?_⟩
  · unfold observed
    simp only [andThen_assoc]
    rfl
  · cases result with
    | ok b => exact obeys_done _
    | error e => exact obeys_andThen (m.tells_tellFailure started e) fun _ => obeys_done _

theorem Hands.andThen {k : α → Stage ε β} (h : Hands m args x rest) (htells : ∀ a, Obeys (Tells m.listeners) (k a)) :
    Hands m args (x.andThen k) fun started r => (rest started r).andThen k := by
  obtain ⟨rfl, hrest⟩ := h
  refine ⟨?_, fun started r => obeys_andThen (hrest started r) htells⟩
  simp only [andThen_assoc]

theorem hands_startStream {hand : Instant → BodyStream → Stage ε α}
    (htells : ∀ started body, Obeys (Tells m.listeners) (hand started body)) :
    Hands m args (m.startStream args hand) fun started r => hand started (itemsOf r) :=
  ⟨rfl, fun started _ => htells started _⟩

theorem deliver_failure (started : Instant) (e : Error) {limit : Option Nat} (hlimit : limit ≠ some 0) :
    m.deliver started limit [.failure e] = (m.tellFailure started e).andThen fun _ =>
      .done ([.error e], decide (limit ≠ some 1)) := by
  rcases limit with _ | _ | n
  · rfl
  · exact absurd rfl hlimit
  · rfl

theorem deliverLines_failure (decoder : Json.Decoder β) (started : Instant) (e : Error)
    {limit : Option Nat} (hlimit : limit ≠ some 0) :
    m.deliverLines decoder started [] limit [.failure e] = (m.tellFailure started e).andThen fun _ =>
      .done [.error e] := by
  rcases limit with _ | _ | n
  · rfl
  · exact absurd rfl hlimit
  · rfl

/-- What an invocation for a single element makes of the outcome of the dispatch. -/
def elementOf (m : Method ε) : Outcome → Stage ε (Except Error (Option Bytes))
  | .error e => .done (.error e)
  | .ok response => m.element response

theorem hands_invokeSingle (m : Method ε) (args : List Argument) :
    Hands m args (m.invokeSingle args) fun started r => (m.elementOf r).andThen (m.closingOf started) :=
  hands_observed (fun r => by
    cases r with
    | error e => exact obeys_done _
    | ok response => exact m.tells_element response)

/-- The response is handed over as it is. -/
theorem hands_execute (m : Method ε) (args : List Argument) :
    Hands m args (m.execute args) fun started r => m.closingOf started r := by
  have hall : Hands m args (m.observed ((m.dispatch args).andThen .done)) fun started r =>
      (Fiber.done r).andThen (m.closingOf started) := hands_observed fun r => obeys_done r
  rwa [andThen_done] at hall

/-- What an invocation for a JSON value makes of a single element. -/
def decodedOf (decoder : Json.Decoder β) : Except Error (Option Bytes) → Stage ε (Except Error (Option β))
  | .error e => .done (.error e)
  | .ok none => .done (.ok none)
  | .ok (some bytes) => .done ((Ndjson.decode decoder bytes).map some)

theorem hands_invokeJson (m : Method ε) (decoder : Json.Decoder β) (args : List Argument) :
    Hands m args (m.invokeJson decoder args) fun started r =>
      ((m.elementOf r).andThen (m.closingOf started)).andThen (decodedOf decoder) :=
  (hands_invokeSingle m args).andThen fun result => by
    rcases result with e | (_ | bytes)
    · exact obeys_done _
    · exact obeys_done _
    · exact obeys_done _

theorem hands_invoke (hreturns : m.endpoint.returns ≠ .stream) (args : List Argument) :
    Hands m args (m.invoke args) fun started r =>
      ((m.elementOf r).andThen (m.closingOf started)).andThen fun outcome => .done (outcome.map .single) := by
  unfold invoke
  split
  · rename_i hstream
    exact absurd hstream hreturns
  · exact (hands_invokeSingle m args).andThen fun _ => obeys_done _

theorem hands_invokeStream {limit : Option Nat} (hlimit : limit ≠ some 0) (args : List Argument) :
    Hands m args (m.invokeStream args limit) fun started r => m.deliver started limit (itemsOf r) := by
  unfold invokeStream
  rw [if_neg hlimit]
  exact hands_startStream fun started body => m.tells_deliver _ _ _

theorem hands_invokeNdjson {limit : Option Nat} (hlimit : limit ≠ some 0) (decoder : Json.Decoder β)
    (args : List Argument) : Hands m args (m.invokeNdjson decoder args limit) fun started r =>
      m.deliverLines decoder started [] limit (itemsOf r) := by
  unfold invokeNdjson
  rw [if_neg hlimit]
  exact hands_startStream fun started body => m.tells_deliverLines _ _ _ _ _

/-- In every way to invoke, a failure of the dispatch is told and made into what the invocation returns. -/
theorem Invokes.hands (h : m.Invokes args x failed) : ∃ rest, Hands m args x rest ∧
    ∀ started e, rest started (.error e) = (m.tellFailure started e).andThen fun _ => .done (failed e) := by
  cases h with
  | execute => exact ⟨_, hands_execute m args, fun started e => rfl⟩
  | single => exact ⟨_, hands_invokeSingle m args, fun started e => rfl⟩
  | json decoder => exact ⟨_, hands_invokeJson m decoder args, fun started e => rfl⟩
  | declared hreturns => exact ⟨_, hands_invoke hreturns args, fun started e => rfl⟩
  | stream hlimit => exact ⟨_, hands_invokeStream hlimit args, fun started e => deliver_failure started e hlimit⟩
  | ndjson decoder hlimit =>
    exact ⟨_, hands_invokeNdjson hlimit decoder args, fun started e => deliverLines_failure decoder started e hlimit⟩

/-- One dispatch; what follows is only remarked, and a failure is told to the listeners and returned. -/
def DispatchesOnce (m : Method ε) (args : List Argument) (x : Stage ε α) (failed : Error → α) : Prop :=
  ∃ rest : Instant → Outcome → Stage ε α,
    x = (now.andThen fun started => (m.dispatch args).andThen (rest started)) ∧
    (∀ started r, Obeys Remarks (rest started r)) ∧
    ∀ started e, rest started (.error e) = (m.tellFailure started e).andThen fun _ => .done (failed e)

theorem Invokes.dispatchesOnce (h : m.Invokes args x failed) : DispatchesOnce m args x failed := by
  obtain ⟨rest, ⟨hx, htells⟩, herror⟩ := h.hands
  exact ⟨rest, hx, fun started r => (htells started r).weaken fun _ _ => Tells.remarks, herror⟩

/-- A path of an invocation is one of its dispatch, and then one with remarks only. -/
theorem Invokes.remarked (h : m.Invokes args x failed) {t t' : Instant} {s s' : World ε}
    {ws : List (Write (World ε))} {a : α} (hends : Ends x t s ws a t' s') :
    ∃ us r t₁ s₁ vs, ws = us ++ vs ∧ Ends (m.dispatch args) t s us r t₁ s₁ ∧ t₁ ≤ t' ∧ (∀ w ∈ vs, Remark w) ∧
      ∀ e, r = .error e → a = failed e ∧ Ends (m.tellFailure t e) t₁ s₁ vs () t' s' := by
  obtain ⟨rest, rfl, hremarks, herror⟩ := h.dispatchesOnce
  obtain ⟨us₀, started, t₀, s₀, vs₀, rfl, hnow, hrest⟩ := (ends_andThen _ _).1 hends
  obtain ⟨rfl, rfl, rfl, rfl⟩ := ends_now.1 hnow
  obtain ⟨us, r, t₁, s₁, vs, rfl, hdispatch, hhand⟩ := (ends_andThen _ _).1 hrest
  refine ⟨us, r, t₁, s₁, vs, rfl, hdispatch, hhand.time_le, (hremarks _ _).writes hhand, ?_⟩
  rintro e rfl
  rw [herror] at hhand
  obtain ⟨us', _, t₂, s₂, vs', rfl, htell, hend⟩ := (ends_andThen _ _).1 hhand
  obtain ⟨rfl, rfl, rfl, rfl⟩ := ends_done.1 hend
  rw [List.append_nil]
  exact ⟨rfl, htell⟩

/-- After the dispatch nothing is sent. -/
theorem Invokes.dispatched (h : m.Invokes args x failed) {t t' : Instant} {s s' : World ε}
    {ws : List (Write (World ε))} {a : α} (hends : Ends x t s ws a t' s') :
    ∃ us r t₁ s₁ vs, ws = us ++ vs ∧ Ends (m.dispatch args) t s us r t₁ s₁ ∧ sentIn vs = [] ∧
      ∀ e, r = .error e → a = failed e ∧ Ends (m.tellFailure t e) t₁ s₁ vs () t' s' := by
  obtain ⟨us, r, t₁, s₁, vs, hws, hdispatch, -, hremarks, herror⟩ := h.remarked hends
  exact ⟨us, r, t₁, s₁, vs, hws, hdispatch, sentIn_of_remarks hremarks, herror⟩

end Shapes

end ResilientClient.Method
