/-
Failures without a wrapper of exhausted retries. The layers that make attempts never put such a wrapper around
a failure: what they return are failures of the collaborators and failures of their own, none of which is one
(`bare_guarding`). So the wrapper of a call is put there by its retries or by its balancer.
-/
import ResilientClient.Proofs.Pipeline.Sending

open ResilientClient.Fiber

namespace ResilientClient

variable {ε α β : Type} {k : Nat}

/-! ## Wrappers -/

namespace Error

/-- The number of wrappers of exhausted retries in a failure. -/
def exhaustions : Error → Nat
  | .outOfRetries _ last => last.exhaustions + 1
  | .decodedFrom _ _ _ cause => cause.exhaustions
  | _ => 0

/-- The failure is no such wrapper, and there are at most `k` of them in it. -/
structure Bare (k : Nat) (e : Error) : Prop where
  own : ∀ attempts last, e ≠ .outOfRetries attempts last
  within : e.exhaustions ≤ k

theorem bare_of_construction {e : Error} (h : e.isConstruction = true) : e.Bare k := by
  cases e with
  | outOfRetries | decodedFrom => cases h
  | _ => exact ⟨nofun, Nat.zero_le k⟩

theorem Bare.exhausted_eq {e : Error} (h : e.Bare k) (attempts : Nat) :
    exhausted attempts e = .outOfRetries attempts e := by
  cases e with
  | outOfRetries attempts' last => exact absurd rfl (h.own attempts' last)
  | _ => rfl

end Error

/-- All failures in the body are bare. -/
def BodyStream.Bare (k : Nat) (body : BodyStream) : Prop := ∀ e, .failure e ∈ body → e.Bare k

/-- A bare failure, or a response in whose body there are no others. -/
def BareOutcome (k : Nat) : Outcome → Prop
  | .ok response => response.body.Bare k
  | .error e => e.Bare k

/-! ## Bodies -/

section Bodies

variable {σ : Type} {limit : Nat} {body : BodyStream} {t t' : Instant} {s s' : σ} {ws : List (Write σ)} {e : Error}

theorem BodyStream.mem_of_fault? {size : Nat} (h : fault? limit size body = some e) : .failure e ∈ body := by
  fun_induction fault? limit size body with
  | case1 => cases h
  | case2 => cases h; exact List.mem_cons_self
  | case3 _ _ _ ih => exact List.mem_cons_of_mem _ (ih h)
  | case4 => cases h
  | case5 _ _ _ _ ih => exact List.mem_cons_of_mem _ (ih h)

/-- To read a body fails with a failure in it, or because it is too large. -/
theorem failure_of_readAll (h : Ends (body.readAll limit) t s ws (.error e) t' s') :
    .failure e ∈ body ∨ ∃ actual, e = .bodyTooLarge limit actual := by
  obtain ⟨-, hfault⟩ := BodyStream.ends_readBehind h
  split at hfault
  · rename_i fault hsome
    cases hfault
    exact .inl (BodyStream.mem_of_fault? hsome)
  · rcases hfault with ⟨bytes, hok⟩ | ⟨actual, hlarge⟩
    · cases hok
    · cases hlarge
      exact .inr ⟨actual, rfl⟩

theorem bare_bodyTooLarge (limit actual : Nat) : (Error.bodyTooLarge limit actual).Bare k :=
  ⟨nofun, Nat.zero_le k⟩

/-- The default handler of statuses returns a failure of its own or of the body. -/
theorem bare_decodeStatus {wallClock : Nat} {method : String} {response : Response} (hbody : response.body.Bare k)
    (h : Ends (StatusHandler.decodeStatus wallClock limit method response) t s ws e t' s') : e.Bare k := by
  obtain ⟨us, result, t₁, s₁, vs, -, hpreview, hend⟩ := (ends_andThen _ _).1 h
  cases result with
  | ok preview =>
    obtain ⟨-, rfl, -, -⟩ := ends_done.1 hend
    exact ⟨nofun, Nat.zero_le k⟩
  | error fault =>
    obtain ⟨-, rfl, -, -⟩ := ends_done.1 hend
    obtain ⟨-, hfault⟩ := BodyStream.ends_preview hpreview
    split at hfault
    · rename_i hsome
      cases hfault
      obtain ⟨hmem, -⟩ := Option.filter_eq_some_iff.1 hsome
      exact hbody _ (BodyStream.mem_of_fault? hmem)
    · obtain ⟨text, htext⟩ := hfault
      cases htext

end Bodies

/-! ## Requests -/

theorem exists_of_mapM_error {f : α → Except Error β} {l : List α} {e : Error} (h : l.mapM f = .error e) :
    ∃ a ∈ l, f a = .error e := by
  induction l with
  | nil => cases h
  | cons a l ih =>
    rw [List.mapM_cons] at h
    cases hfirst : f a with
    | error e' =>
      rw [hfirst] at h
      cases h
      exact ⟨a, List.mem_cons_self, hfirst⟩
    | ok b =>
      cases hrest : l.mapM f with
      | error e' =>
        rw [hfirst, hrest] at h
        cases h
        obtain ⟨a', hmem, ha'⟩ := ih hrest
        exact ⟨a', List.mem_cons_of_mem _ hmem, ha'⟩
      | ok bs =>
        rw [hfirst, hrest] at h
        cases h

namespace Endpoint

variable {e : Error}

theorem headerField_error {name : Http.HeaderName} {value : String} (h : headerField name value = .error e) :
    e.isConstruction = true := by
  unfold headerField at h
  split at h
  · cases h
  · cases h
    rfl

theorem headerFields_error {endpoint : Endpoint} {args : List Argument} (h : endpoint.headerFields args = .error e) :
    e.isConstruction = true := by
  unfold headerFields at h
  split at h
  · rename_i hdeclared
    cases h
    obtain ⟨entry, -, hentry⟩ := exists_of_mapM_error hdeclared
    obtain ⟨value, -, hvalue⟩ := exists_of_mapM_error hentry
    exact headerField_error hvalue
  · split at h
    · rename_i hmapped
      cases h
      obtain ⟨entry, -, hentry⟩ := exists_of_mapM_error hmapped
      unfold mapFields at hentry
      split at hentry
      · obtain ⟨value, -, hvalue⟩ := exists_of_mapM_error hentry
        exact headerField_error hvalue
      · cases hentry
        rfl
    · cases h

/-- Only a faulty construction keeps a method from being expanded. -/
theorem expand_error {endpoint : Endpoint} {args : List Argument} {base : String}
    (h : endpoint.expand args base = .error e) : e.isConstruction = true := by
  unfold expand at h
  split at h
  · rename_i hurl
    cases h
    unfold parseUrl at hurl
    split at hurl
    · cases hurl
      rfl
    · split at hurl
      · cases hurl
        rfl
      · split at hurl
        · cases hurl
          rfl
        · cases hurl
  · split at h
    · rename_i hfields
      cases h
      exact headerFields_error hfields
    · cases h

end Endpoint

theorem exists_of_intercept_error {chain : List Interceptor} : ∀ {request : Request} {e : Error},
    request.intercept chain = .error e → ∃ change ∈ chain, ∃ request, change request = .error e := by
  unfold Request.intercept
  induction chain with
  | nil => exact fun h => by cases h
  | cons change chain ih =>
    intro request e h
    rw [List.foldlM_cons] at h
    cases hfirst : change request with
    | error e' =>
      rw [hfirst] at h
      cases h
      exact ⟨change, List.mem_cons_self, request, hfirst⟩
    | ok next =>
      rw [hfirst] at h
      obtain ⟨change', hmem, hchange⟩ := ih h
      exact ⟨change', List.mem_cons_of_mem _ hmem, hchange⟩

/-! ## Attempts -/

/-- What the collaborators of an attempt return is bare. -/
structure Exchange.Bare (k : Nat) (exchange : Exchange ε) : Prop where
  transport : ∀ request t o ws r t' o', Ends (exchange.transport request) t o ws r t' o' → BareOutcome k r
  interceptors : ∀ change ∈ exchange.interceptors, ∀ request e, change request = .error e → e.Bare k
  /-- Unless a failure in the body is to blame. -/
  statusHandler : ∀ method response t o ws e t' o', response.body.Bare k →
    Ends (exchange.statusHandler.decode method response) t o ws e t' o' → e.Bare k

/-- What a fallback returns is bare, unless it returns the failure that it is told. -/
def Fallback.Bare (k : Nat) (fallback : Fallback ε) : Prop :=
  ∀ method args cause t o ws r t' o', cause.Bare k → Ends (fallback method args cause) t o ws r t' o' → BareOutcome k r

namespace Pipeline

section Attempts

variable {exchange : Exchange ε} {call : Call} {t t' : Instant} {s s' : World ε} {ws : List (Write (World ε))}
  {r : Outcome} {e : Error}

theorem bare_prepare (hexchange : exchange.Bare k) (h : prepare exchange.interceptors call = .error e) : e.Bare k := by
  unfold prepare at h
  split at h
  · rename_i hbase
    cases h
    unfold baseUrl at hbase
    split at hbase
    · cases hbase
    · cases hbase
    · cases hbase
      exact Error.bare_of_construction rfl
  · split at h
    · rename_i hexpand
      cases h
      exact Error.bare_of_construction (Endpoint.expand_error hexpand)
    · obtain ⟨change, hmem, request, hchange⟩ := exists_of_intercept_error h
      exact hexchange.interceptors change hmem request e hchange

theorem bare_send (hexchange : exchange.Bare k) {request : Request}
    (h : Ends (send exchange request) t s ws r t' s') : BareOutcome k r := by
  obtain ⟨t₁, o₁, us, answer, t₂, o₂, htransport, rfl⟩ := answer_of_send h
  have hanswer := hexchange.transport _ _ _ _ _ _ _ htransport
  cases answer with
  | error e => exact hanswer
  | ok response => exact hanswer

theorem bare_aggregate {limit : Nat} {response : Response} (hbody : response.body.Bare k)
    (h : Ends (aggregate limit response) t s ws r t' s') : BareOutcome k r := by
  obtain ⟨us, result, t₁, s₁, vs, -, hread, hend⟩ := (ends_andThen _ _).1 h
  cases result with
  | error e =>
    obtain ⟨-, rfl, -, -⟩ := ends_done.1 hend
    rcases failure_of_readAll hread with hmem | ⟨actual, rfl⟩
    · exact hbody e hmem
    · exact bare_bodyTooLarge limit actual
  | ok bytes =>
    obtain ⟨-, rfl, -, -⟩ := ends_done.1 hend
    intro e hmem
    dsimp only at hmem
    split at hmem <;> simp at hmem

theorem bare_classify (hexchange : exchange.Bare k) {response : Response} (hbody : response.body.Bare k)
    (h : Ends (classify exchange call response) t s ws r t' s') : BareOutcome k r := by
  unfold classify at h
  split at h
  · obtain ⟨-, rfl, -, -⟩ := ends_done.1 h
    exact fun e hmem => absurd hmem List.not_mem_nil
  · split at h
    · obtain ⟨us, e, t₁, s₁, vs, -, hdecode, hend⟩ := (ends_andThen _ _).1 h
      obtain ⟨-, rfl, -, -⟩ := ends_done.1 hend
      exact hexchange.statusHandler _ _ _ _ _ _ _ _ hbody (ends_outside hdecode).1
    · split at h
      · obtain ⟨-, rfl, -, -⟩ := ends_done.1 h
        exact hbody
      · exact bare_aggregate hbody h

theorem bare_executing (hexchange : exchange.Bare k) (h : Ends (executing exchange call) t s ws r t' s') :
    BareOutcome k r := by
  unfold executing at h
  split at h
  · rename_i hprepare
    obtain ⟨-, rfl, -, -⟩ := ends_done.1 h
    exact bare_prepare hexchange hprepare
  · obtain ⟨us, answer, t₁, s₁, vs, -, hsend, hrest⟩ := (ends_andThen _ _).1 h
    have hanswer := bare_send hexchange hsend
    cases answer with
    | error e =>
      obtain ⟨-, rfl, -, -⟩ := ends_done.1 hrest
      exact hanswer
    | ok response => exact bare_classify hexchange hanswer hrest

theorem bare_limited {limit : Option Duration} {method : String} {work : Stage ε Outcome}
    (hwork : ∀ t s ws r t' s', Ends work t s ws r t' s' → BareOutcome k r)
    (h : Ends (limited limit method work) t s ws r t' s') : BareOutcome k r := by
  cases limit with
  | none => exact hwork _ _ _ _ _ _ h
  | some limit =>
    obtain ⟨us, result, t₁, s₁, vs, -, hwithin, hend⟩ := (ends_andThen _ _).1 h
    rcases ends_within _ hwithin with ⟨o, rfl, hinner, -⟩ | ⟨_, _, _, _, _, _, _, rfl, -⟩
    · obtain ⟨-, rfl, -, -⟩ := ends_done.1 hend
      exact hwork _ _ _ _ _ _ hinner
    · obtain ⟨-, rfl, -, -⟩ := ends_done.1 hend
      exact ⟨nofun, Nat.zero_le k⟩

theorem bare_recover {fallback : Option (Fallback ε)} (hfallback : ∀ f, fallback = some f → f.Bare k) {cause : Error}
    (hcause : cause.Bare k) (h : Ends (recover fallback call cause) t s ws r t' s') : BareOutcome k r := by
  cases fallback with
  | none =>
    obtain ⟨-, rfl, -, -⟩ := ends_done.1 h
    exact hcause
  | some f =>
    obtain ⟨us₁, _, t₁, s₁, vs₁, -, -, h₁⟩ := (ends_andThen _ _).1 h
    obtain ⟨us₂, _, t₂, s₂, vs₂, -, -, h₂⟩ := (ends_andThen _ _).1 h₁
    exact hfallback f rfl _ _ _ _ _ _ _ _ _ hcause (ends_outside h₂).1

theorem bare_conclude {fallback : Option (Fallback ε)} (hfallback : ∀ f, fallback = some f → f.Bare k)
    {permit : Permit} {o : Outcome} (ho : BareOutcome k o)
    (h : Ends (conclude fallback call permit o) t s ws r t' s') : BareOutcome k r := by
  cases o with
  | ok response =>
    obtain ⟨us, _, t₁, s₁, vs, -, -, hend⟩ := (ends_andThen _ _).1 h
    obtain ⟨-, rfl, -, -⟩ := ends_done.1 hend
    exact ho
  | error e =>
    simp only [conclude] at h
    split at h
    · obtain ⟨us, _, t₁, s₁, vs, -, -, hend⟩ := (ends_andThen _ _).1 h
      obtain ⟨-, rfl, -, -⟩ := ends_done.1 hend
      exact ho
    · obtain ⟨us, _, t₁, s₁, vs, -, -, hrecover⟩ := (ends_andThen _ _).1 h
      exact bare_recover hfallback ho hrecover

/-- Whatever becomes of an attempt behind a breaker, its outcome is bare. -/
theorem bare_guarding (hexchange : exchange.Bare k) {key : String} {limit : Option Duration}
    {fallback : Option (Fallback ε)} (hfallback : ∀ f, fallback = some f → f.Bare k)
    (h : Ends (guarding key limit fallback (executing exchange) call) t s ws r t' s') : BareOutcome k r := by
  obtain ⟨us, answer, t₁, s₁, vs, -, -, hrest⟩ := (ends_andThen _ _).1 h
  cases answer with
  | none =>
    obtain ⟨us', _, t₂, s₂, vs', -, -, hrecover⟩ := (ends_andThen _ _).1 hrest
    have hopen : (Error.circuitOpen key).Bare k := ⟨nofun, Nat.zero_le k⟩
    exact bare_recover hfallback hopen hrecover
  | some permit =>
    obtain ⟨us', o, t₂, s₂, vs', -, hattempt, hconclude⟩ := (ends_andThen _ _).1 hrest
    have ho := bare_limited (fun _ _ _ _ _ _ => bare_executing hexchange) ((ends_protect _ _).1 hattempt)
    exact bare_conclude hfallback ho hconclude

end Attempts

end Pipeline

end ResilientClient
