/-
Responses that blame the request, and what a pipeline makes of them: an attempt heeds its response
(`attempt_heeds`), and every layer around a service that heeds its responses does so itself, since it takes
a failure by which the request is blamed for final.
-/
import ResilientClient.Pipeline.Balance
import ResilientClient.Pipeline.Execute
import ResilientClient.Pipeline.Guard
import ResilientClient.Pipeline.Retry
import ResilientClient.Proofs.Pipeline.Faults
import ResilientClient.Proofs.Pipeline.Heed

open ResilientClient.Fiber

namespace ResilientClient

variable {δ : Type}

namespace Pipeline

/-! ## Attempts -/

section Attempts

variable {limit wallClock : Nat} {t t' : Instant} {s s' : World (Tapped δ)}
  {ws : List (Write (World (Tapped δ)))}

/-- A transport on record fails unheard, or it returns a response, which is heard last. -/
theorem ends_tapped {transport : Transport δ} {request : Request} {o : Outcome}
    (h : Ends (Stage.outside (Tapped.transport transport request)) t s ws o t' s') :
    Deaf ws ∧ (∃ e, o = .error e) ∨
      ∃ us w response, ws = us ++ [w] ∧ Deaf us ∧ Hears w response ∧ o = .ok response := by
  obtain ⟨hwork, -⟩ := ends_outside h
  obtain ⟨us, result, t₁, o₁, vs, hsplit, hown, hend⟩ := (ends_andThen _ _).1 hwork
  obtain ⟨-, hframe⟩ := ends_zoom (fun _ _ => rfl) _ hown
  obtain ⟨us', vs', rfl, rfl, hvs⟩ := List.map_eq_append_iff.1 hsplit
  have hdeaf : Deaf us' := deaf_of_frame hframe
  cases result with
  | error e =>
    obtain ⟨rfl, rfl, -, -⟩ := ends_done.1 hend
    obtain rfl := List.map_eq_nil_iff.1 hvs
    rw [List.append_nil]
    exact .inl ⟨hdeaf, e, rfl⟩
  | ok response =>
    obtain ⟨us₂, _, t₂, o₂, vs₂, rfl, hhear, hdone⟩ := (ends_andThen _ _).1 hend
    obtain ⟨rfl, rfl, rfl⟩ := ends_modify.1 hhear
    obtain ⟨rfl, rfl, -, -⟩ := ends_done.1 hdone
    obtain ⟨w, rest, rfl, hw, hrest⟩ := List.map_eq_cons_iff.1 hvs
    obtain rfl := List.map_eq_nil_iff.1 hrest
    have hbefore : w.before.outside = o₁ := congrArg Write.before hw
    have hafter : w.after.outside = Tapped.hear response o₁ := congrArg Write.after hw
    refine .inr ⟨us', w, response, rfl, hdeaf, ?_, rfl⟩
    rw [Hears, hbefore, hafter]
    rfl

/-- A request fails unheard, or its response is heard, and nothing loud follows. -/
theorem ends_send {exchange : Exchange (Tapped δ)} {transport : Transport δ}
    (htransport : exchange.transport = Tapped.transport transport) {request : Request} {o : Outcome}
    (h : Ends (send exchange request) t s ws o t' s') :
    Deaf ws ∧ (∃ e, o = .error e) ∨ ∃ us w vs response, ws = us ++ w :: vs ∧ Deaf us ∧
      Hears w response ∧ Deaf vs ∧ Hushed vs ∧ o = .ok (response.withRequest request) := by
  unfold send at h
  rw [htransport] at h
  obtain ⟨told, _, t₁, s₁, ws₁, rfl, htell, h₁⟩ := (ends_andThen _ _).1 h
  obtain ⟨sent, _, t₂, s₂, ws₂, rfl, hsent, h₂⟩ := (ends_andThen _ _).1 h₁
  obtain ⟨us₃, started, t₃, s₃, ws₃, rfl, hnow, h₃⟩ := (ends_andThen _ _).1 h₂
  obtain ⟨rfl, rfl, rfl, rfl⟩ := ends_now.1 hnow
  obtain ⟨us, o', t₄, s₄, ws₄, rfl, hwork, h₄⟩ := (ends_andThen _ _).1 h₃
  have hfirst : Deaf (told ++ sent) := (quiet_tell htell).1.append (deaf_note hsent).1
  rcases ends_tapped hwork with ⟨hdeaf, e, rfl⟩ | ⟨us, w, response, rfl, hdeaf, hw, rfl⟩
  · obtain ⟨answered, _, t₅, s₅, ws₅, rfl, hanswered, h₅⟩ := (ends_andThen _ _).1 h₄
    obtain ⟨rfl, rfl, rfl, rfl⟩ := ends_done.1 h₅
    refine .inl ⟨?_, e, rfl⟩
    have hall := hfirst.append (hdeaf.append (deaf_note hanswered).1)
    simpa using hall
  · obtain ⟨answered, _, t₅, s₅, ws₅, rfl, hanswered, h₅⟩ := (ends_andThen _ _).1 h₄
    obtain ⟨us₆, ended, t₆, s₆, ws₆, rfl, hnow, h₆⟩ := (ends_andThen _ _).1 h₅
    obtain ⟨rfl, rfl, rfl, rfl⟩ := ends_now.1 hnow
    obtain ⟨received, _, t₇, s₇, ws₇, rfl, hreceived, h₇⟩ := (ends_andThen _ _).1 h₆
    obtain ⟨rfl, rfl, rfl, rfl⟩ := ends_done.1 h₇
    obtain ⟨hdeaf', hhushed⟩ := deaf_note hanswered
    have hhushed' : Hushed answered := hhushed fun o ho => by
      obtain rfl := List.mem_singleton.1 ho
      rfl
    obtain ⟨hdeaf'', hhushed''⟩ := quiet_tell hreceived
    refine .inr ⟨told ++ sent ++ us, w, answered ++ received, response, by simp, hfirst.append hdeaf, hw,
      hdeaf'.append hdeaf'', hhushed'.append hhushed'', rfl⟩

/-- The classification of a response writes nothing; one that blames the request ends in such a failure
exactly if its preview is unbroken. -/
theorem ends_classify {exchange : Exchange (Tapped δ)}
    (hhandler : exchange.statusHandler = .ofPreviewLimit wallClock limit)
    (h404 : exchange.decode404 = false) {call : Call} {response : Response} {r : Outcome}
    (h : Ends (classify exchange call response) t s ws r t' s') :
    ws = [] ∧ (response.status.BlamesRequest →
      (Blamed r ↔ response.body.Unbroken (min limit previewLimit))) := by
  unfold classify at h
  rw [h404, hhandler, if_neg (by simp)] at h
  split at h
  · obtain ⟨us, e, t₁, s₁, vs, rfl, hdecode, hend⟩ := (ends_andThen _ _).1 h
    obtain ⟨rfl, rfl, rfl, rfl⟩ := ends_done.1 hend
    obtain ⟨hws, hiff⟩ := ends_decodeStatus (ends_outside hdecode).1
    obtain rfl := List.map_eq_nil_iff.1 hws
    exact ⟨rfl, fun hblames => blamed_error_iff.trans (hiff hblames)⟩
  · rename_i hhandles
    -- a status that blames the request is handled
    have hno : ¬ response.status.BlamesRequest := fun hblames => hhandles (by
      simp [StatusHandler.ofPreviewLimit, hblames.1])
    refine ⟨?_, fun hblames => absurd hblames hno⟩
    split at h
    · exact (ends_done.1 h).1
    · obtain ⟨us, result, t₁, s₁, vs, rfl, hread, hend⟩ := (ends_andThen _ _).1 h
      obtain ⟨rfl, -⟩ := BodyStream.ends_readBehind hread
      cases result with
      | error e => exact (ends_done.1 hend).1
      | ok bytes => exact (ends_done.1 hend).1

/-- An attempt heeds its response. It ends in a failure by which the request is blamed exactly if the
response says so and its preview is unbroken. -/
theorem attempt_heeds {exchange : Exchange (Tapped δ)} {transport : Transport δ}
    (htransport : exchange.transport = Tapped.transport transport)
    (hhandler : exchange.statusHandler = .ofPreviewLimit wallClock limit)
    (h404 : exchange.decode404 = false) {call : Call} {r : Outcome}
    (h : Ends (executing exchange call) t s ws r t' s') :
    Heeds (min limit previewLimit) ws r ∧ AtEach (fun response _ => response.status.BlamesRequest →
      (Blamed r ↔ response.body.Unbroken (min limit previewLimit))) ws := by
  unfold executing at h
  split at h
  · obtain ⟨rfl, -, -, -⟩ := ends_done.1 h
    exact ⟨atEach_nil, atEach_nil⟩
  · obtain ⟨us, o, t₁, s₁, vs, rfl, hsend, hrest⟩ := (ends_andThen _ _).1 h
    rcases ends_send htransport hsend with ⟨hdeaf, e, rfl⟩ |
      ⟨us, w, us', response, rfl, hdeaf, hw, hdeaf', hhushed, rfl⟩
    · obtain ⟨rfl, -, -, -⟩ := ends_done.1 hrest
      rw [List.append_nil]
      exact ⟨atEach_of_deaf hdeaf, atEach_of_deaf hdeaf⟩
    · obtain ⟨rfl, hiff⟩ := ends_classify hhandler h404 hrest
      rw [List.append_nil]
      exact ⟨atEach_of_one hdeaf hw hdeaf' fun hblames hbody => ⟨hhushed, (hiff hblames).2 hbody⟩,
        atEach_of_one hdeaf hw hdeaf' hiff⟩

end Attempts

/-! ## Layers -/

/-- Every call that ends heeds the responses that are returned for it. -/
def HeedsAll (limit : Nat) (service : Service (Tapped δ)) : Prop :=
  ∀ call t s ws r t' s', Ends (service call) t s ws r t' s' → Heeds limit ws r

section Layers

variable {limit : Nat} {inner : Service (Tapped δ)} {t t' : Instant} {s s' : World (Tapped δ)}
  {ws : List (Write (World (Tapped δ)))}

theorem deaf_acquire {key : String} {answer : Option Permit}
    (h : Ends (acquire key) t s ws answer t' s') : Deaf ws := by
  obtain ⟨rfl, -, -, -⟩ := ends_modifyGet.1 h
  intro w hw
  obtain rfl := List.mem_singleton.1 hw
  rfl

/-- A report is not heard, and only that of a failure is loud. -/
theorem deaf_report {permit : Permit} {v : Verdict} {u : Unit}
    (h : Ends (report permit v) t s ws u t' s') : Deaf ws ∧ (v ≠ .failure → Hushed ws) := by
  obtain ⟨rfl, -, -, -⟩ := ends_modifyGet.1 h
  constructor
  · intro w hw
    obtain rfl := List.mem_singleton.1 hw
    rfl
  · intro hv o ho
    simp only [gainedIn_cons, gainedIn_nil, List.append_nil, World.note, gained_append,
      List.reverse_reverse, List.mem_append, List.mem_map, List.mem_singleton] at ho
    rcases ho with ⟨line, -, rfl⟩ | rfl
    · rfl
    · cases v with
      | success => rfl
      | ignored => rfl
      | failure => exact absurd rfl hv

theorem deaf_recover {fallback : Option (Fallback δ)} {call : Call} {cause : Error} {r : Outcome}
    (h : Ends (recover (fallback.map Tapped.fallback) call cause) t s ws r t' s') : Deaf ws := by
  cases fallback with
  | none =>
    obtain ⟨rfl, -, -, -⟩ := ends_done.1 h
    exact deaf_nil
  | some f =>
    obtain ⟨us, _, t₁, s₁, vs, rfl, hlog, hrest⟩ := (ends_andThen _ _).1 h
    obtain ⟨us', _, t₂, s₂, vs', rfl, hnote, hwork⟩ := (ends_andThen _ _).1 hrest
    exact (quiet_log hlog).1.append ((deaf_note hnote).1.append (deaf_sheltered hwork))

/-- A failure by which the request is blamed is ignored by the breaker and returned. -/
theorem ends_conclude {fallback : Option (Fallback δ)} {call : Call} {permit : Permit} {o r : Outcome}
    (h : Ends (conclude (fallback.map Tapped.fallback) call permit o) t s ws r t' s') :
    Deaf ws ∧ (Blamed o → Hushed ws ∧ Blamed r) := by
  cases o with
  | ok response =>
    obtain ⟨us, _, t₁, s₁, vs, rfl, hreport, hend⟩ := (ends_andThen _ _).1 h
    obtain ⟨rfl, -, -, -⟩ := ends_done.1 hend
    exact ⟨(deaf_report hreport).1.append deaf_nil, fun ho => absurd ho not_blamed_ok⟩
  | error e =>
    simp only [conclude] at h
    split at h
    · obtain ⟨us, _, t₁, s₁, vs, rfl, hreport, hend⟩ := (ends_andThen _ _).1 h
      obtain ⟨rfl, rfl, -, -⟩ := ends_done.1 hend
      obtain ⟨hdeaf, hhushed⟩ := deaf_report hreport
      rw [List.append_nil]
      exact ⟨hdeaf, fun ho => ⟨hhushed (by decide), ho⟩⟩
    · rename_i hfault
      obtain ⟨us, _, t₁, s₁, vs, rfl, hreport, hrecover⟩ := (ends_andThen _ _).1 h
      refine ⟨(deaf_report hreport).1.append (deaf_recover hrecover), fun ho => ?_⟩
      have hblamed := blamed_error_iff.1 ho
      exact absurd (by simp [isOwnFault, hblamed]) hfault

theorem guarding_heeds (h : HeedsAll limit inner) (key : String) (fallback : Option (Fallback δ)) :
    HeedsAll limit (guarding key none (fallback.map Tapped.fallback) inner) := by
  intro call t s ws r t' s' hends
  obtain ⟨us, answer, t₁, s₁, vs, rfl, hacquire, hrest⟩ := (ends_andThen _ _).1 hends
  refine AtEach.deaf_append (deaf_acquire hacquire) ?_
  cases answer with
  | none =>
    obtain ⟨us', _, t₂, s₂, vs', rfl, hlog, hrecover⟩ := (ends_andThen _ _).1 hrest
    exact atEach_of_deaf ((quiet_log hlog).1.append (deaf_recover hrecover))
  | some permit =>
    obtain ⟨us', o, t₂, s₂, vs', rfl, hinner, hconclude⟩ := (ends_andThen _ _).1 hrest
    obtain ⟨hdeaf, hblamed⟩ := ends_conclude hconclude
    exact (h _ _ _ _ _ _ _ ((ends_protect _ _).1 hinner)).append hblamed (atEach_of_deaf hdeaf)

/-- No instance can do better with a request that is at fault. -/
theorem failover_stop {e : Error} (h : e.isClientRequestError = true) : Failover.of e = .stop := by
  refine (Failover.of_eq_stop_iff e).2 fun hfault => ?_
  rw [hfault.not_clientRequestError] at h
  cases h

theorem deaf_choose {resolver : Resolver δ} {service : String} {server : Option Server}
    {choice : Except Error Server}
    (h : Ends (choose (Tapped.resolver resolver) service server) t s ws choice t' s') : Deaf ws := by
  cases server with
  | some server =>
    obtain ⟨rfl, -, -, -⟩ := ends_done.1 h
    exact deaf_nil
  | none =>
    obtain ⟨us, found, t₁, s₁, vs, rfl, hwork, hrest⟩ := (ends_andThen _ _).1 h
    obtain ⟨us', _, t₂, s₂, vs', rfl, hnote, hend⟩ := (ends_andThen _ _).1 hrest
    obtain ⟨rfl, -, -, -⟩ := ends_done.1 hend
    exact (deaf_sheltered hwork).append ((deaf_note hnote).1.append deaf_nil)

/-- By induction on the attempts that the counter has room for: a failure by which the request is blamed
ends the loop, and whatever else happens is heeded by the attempts that follow. -/
theorem balanceFrom_heeds (h : HeedsAll limit inner) (config : BalancerConfig) (resolver : Resolver δ)
    (call : Call) (service : String) (room : Nat) : ∀ {state : BalanceState} {t : Instant}
    {s : World (Tapped δ)} {ws : List (Write (World (Tapped δ)))} {r : Outcome},
    Ends (balanceFrom config (Tapped.resolver resolver) inner call service room state) t s ws r t' s' →
      Heeds limit ws r := by
  induction room with
  | zero =>
    intro state t s ws r hends
    unfold balanceFrom at hends
    obtain ⟨us, choice, t₁, s₁, vs, rfl, hchoose, hrest⟩ := (ends_andThen _ _).1 hends
    refine AtEach.deaf_append (deaf_choose hchoose) ?_
    cases choice with
    | error e => obtain ⟨rfl, -, -, -⟩ := ends_done.1 hrest; exact atEach_nil
    | ok server => obtain ⟨rfl, -, -, -⟩ := ends_done.1 hrest; exact atEach_nil
  | succ room ih =>
    intro state t s ws r hends
    unfold balanceFrom at hends
    obtain ⟨us, choice, t₁, s₁, vs, rfl, hchoose, hrest⟩ := (ends_andThen _ _).1 hends
    refine AtEach.deaf_append (deaf_choose hchoose) ?_
    cases choice with
    | error e => obtain ⟨rfl, -, -, -⟩ := ends_done.1 hrest; exact atEach_nil
    | ok server =>
      obtain ⟨us', o, t₂, s₂, vs', rfl, hinner, hnext⟩ := (ends_andThen _ _).1 hrest
      have hheeds := h _ _ _ _ _ _ _ hinner
      cases o with
      | ok response =>
        obtain ⟨rfl, -, -, -⟩ := ends_done.1 hnext
        exact hheeds.append_of_unblamed not_blamed_ok atEach_nil
      | error e =>
        dsimp only at hnext
        split at hnext
        · obtain ⟨rfl, rfl, -, -⟩ := ends_done.1 hnext
          rw [List.append_nil]
          exact hheeds
        · rename_i hgoes
          refine hheeds.append_of_unblamed (fun hblamed => ?_) ?_
          · exact hgoes (failover_stop (blamed_error_iff.1 hblamed))
          · split at hnext
            · obtain ⟨us, _, t₃, s₃, vs, rfl, hlog, hmore⟩ := (ends_andThen _ _).1 hnext
              exact (ih hmore).deaf_append (quiet_log hlog).1
            · split at hnext
              · obtain ⟨us, _, t₃, s₃, vs, rfl, hlog, hmore⟩ := (ends_andThen _ _).1 hnext
                exact (ih hmore).deaf_append (quiet_log hlog).1
              · obtain ⟨us, _, t₃, s₃, vs, rfl, hlog, hend⟩ := (ends_andThen _ _).1 hnext
                obtain ⟨rfl, -, -, -⟩ := ends_done.1 hend
                exact atEach_nil.deaf_append (quiet_log hlog).1

theorem balancing_heeds (h : HeedsAll limit inner) (config : BalancerConfig)
    (resolver : Option (Resolver δ)) :
    HeedsAll limit (balancing config (resolver.map Tapped.resolver) inner) := by
  intro call t s ws r t' s' hends
  unfold balancing at hends
  split at hends
  · exact h _ _ _ _ _ _ _ hends
  · cases resolver with
    | none => obtain ⟨rfl, -, -, -⟩ := ends_done.1 hends; exact atEach_nil
    | some resolver => exact balanceFrom_heeds h config resolver call _ counterMax hends

theorem attemptsFrom_heeds (h : HeedsAll limit inner) {policy : RetryPolicy}
    (hpolicy : ∀ e attempt, e.isClientRequestError = true → policy e attempt = .notRetryable)
    (listeners : List Listener) (call : Call) (room : Nat) : ∀ {attempt : Nat} {t : Instant}
    {s : World (Tapped δ)} {ws : List (Write (World (Tapped δ)))} {r : Outcome},
    Ends (attemptsFrom policy listeners (inner call) call.method room attempt) t s ws r t' s' →
      Heeds limit ws r := by
  induction room with
  | zero =>
    intro attempt t s ws r hends
    obtain ⟨rfl, -, -, -⟩ := ends_done.1 hends
    exact atEach_nil
  | succ room ih =>
    intro attempt t s ws r hends
    obtain ⟨us, o, t₁, s₁, vs, rfl, hinner, hnext⟩ := (ends_andThen _ _).1 hends
    have hheeds := h _ _ _ _ _ _ _ hinner
    cases o with
    | ok response =>
      obtain ⟨rfl, -, -, -⟩ := ends_done.1 hnext
      exact hheeds.append_of_unblamed not_blamed_ok atEach_nil
    | error e =>
      dsimp only at hnext
      -- another attempt, or a wrapper, means that the request is not blamed
      have hother : policy e attempt ≠ .notRetryable → Heeds limit vs r → Heeds limit (us ++ vs) r :=
        fun hne => hheeds.append_of_unblamed fun hblamed =>
          hne (hpolicy e attempt (blamed_error_iff.1 hblamed))
      cases hdecision : policy e attempt with
      | notRetryable =>
        rw [hdecision] at hnext
        obtain ⟨rfl, rfl, -, -⟩ := ends_done.1 hnext
        rw [List.append_nil]
        exact hheeds
      | exhausted =>
        refine hother (by simp [hdecision]) ?_
        rw [hdecision] at hnext
        obtain ⟨us', _, t₂, s₂, vs', rfl, hlog, hend⟩ := (ends_andThen _ _).1 hnext
        obtain ⟨rfl, -, -, -⟩ := ends_done.1 hend
        exact atEach_nil.deaf_append (quiet_log hlog).1
      | retry delay =>
        refine hother (by simp [hdecision]) ?_
        rw [hdecision] at hnext
        obtain ⟨us₁, _, t₂, s₂, vs₁, rfl, hlog, hrest⟩ := (ends_andThen _ _).1 hnext
        obtain ⟨us₂, _, t₃, s₃, vs₂, rfl, htell, hrest⟩ := (ends_andThen _ _).1 hrest
        obtain ⟨us₃, _, t₄, s₄, vs₃, rfl, hsleep, hmore⟩ := (ends_andThen _ _).1 hrest
        obtain rfl := ends_sleep hsleep
        exact ((ih hmore).deaf_append (quiet_tell htell).1).deaf_append (quiet_log hlog).1

theorem retrying_heeds (h : HeedsAll limit inner) {policy : RetryPolicy}
    (hpolicy : ∀ e attempt, e.isClientRequestError = true → policy e attempt = .notRetryable)
    (listeners : List Listener) : HeedsAll limit (retrying policy listeners inner) :=
  fun call _ _ _ _ _ _ hends => attemptsFrom_heeds h hpolicy listeners call counterMax hends

end Layers

end Pipeline

end ResilientClient
