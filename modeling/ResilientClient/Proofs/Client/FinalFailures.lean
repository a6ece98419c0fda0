/-
Final failures. Retries and balancing have rules of their own for which failures are the end, and they agree
on the final ones: wherever an invocation is when an attempt fails in such a way, and whatever its budgets
still allow, it ends there with that failure (`final_failures_end`).
-/
import ResilientClient.Proofs.Client.Courses
import ResilientClient.Proofs.Client.Invocation

open ResilientClient.Fiber ResilientClient.Pipeline

namespace ResilientClient

variable {ε : Type}

/-- The retry policy of the client is that of its configuration. Every invocation is a journey on a course of
its call, and then its result is handed over. If an attempt on the journey ends in a final failure, then
nothing comes after it but that the listeners are told, and the invocation returns this failure. -/
theorem final_failures_end (b : Builder ε) (around : Surroundings ε) (c : RetryConfig)
    (hpolicy : b.retryPolicy = none) (hretry : b.config.retry = some c) {client : Client ε}
    {t₀ t₁ : Instant} {s₀ s₁ : World ε} {ws₀ : List (Write (World ε))}
    (hbuild : Ends (b.build around) t₀ s₀ ws₀ (.ok client) t₁ s₁) :
    ∃ rule, HeaderRule.userAgent b.config.userAgent = .ok rule ∧
      ∀ m ∈ client.methods, ∀ (args : List Argument) (α : Type) (x : Stage ε α) (failed : Error → α),
        m.Invokes args x failed → ∀ t s ws a t' s', Ends x t s ws a t' s' →
          ∃ legs us vs r t₂ s₂, ws = us ++ vs ∧ b.MadeOf around rule m args legs t s us r t₂ s₂ ∧
            ∀ before call e after, legs = before ++ .attempt call (.error e) :: after → c.Final e →
              after = [] ∧ r = .error e ∧ a = failed e ∧
                Ends (m.tellFailure t e) t₂ s₂ vs () t' s' := by
  obtain ⟨rule, hrule, hmethods⟩ := Builder.madeOf_of_dispatch hpolicy hbuild
  refine ⟨rule, hrule, fun m hm args α x failed hinvokes t s ws a t' s' hends => ?_⟩
  obtain ⟨us, r, t₂, s₂, vs, rfl, hdispatch, -, herror⟩ := hinvokes.dispatched hends
  obtain ⟨legs, hmade⟩ := hmethods m hm args t s us r t₂ s₂ hdispatch
  refine ⟨legs, us, vs, r, t₂, s₂, rfl, hmade, fun before call e after hlegs hfinal => ?_⟩
  obtain ⟨hafter, rfl⟩ := Builder.course_endsAt hretry hmade.course before call e after hlegs hfinal
  exact ⟨hafter, rfl, herror e rfl⟩

/-! ## A request that is at fault -/

/-- A 404 as the answer, and three retries: one request is sent, and its failure is returned as it is. -/
theorem final_failures_end_not_found :
    let b := Builder.answering ⟨.notFound, .empty, [.chunk [120]], none⟩ 3
    let notFound : Error := .status "Api#get()" .notFound "x" none none
    ∃ client ws₀ t₁ s₁ m ws t' s', Ends (b.build Builder.nowhere) 0 Builder.untouched ws₀ (.ok client) t₁ s₁ ∧
      m ∈ client.methods ∧ Ends (m.execute []) t₁ s₁ ws (.error notFound) t' s' ∧ s'.sent.length = 1 ∧
      RetryConfig.Final ⟨3, .none, false⟩ notFound ∧
      ∃ rule before call us vs t₂ s₂, ws = us ++ vs ∧
        b.MadeOf Builder.nowhere rule m [] (before ++ [.attempt call (.error notFound)]) t₁ s₁ us
          (.error notFound) t₂ s₂ ∧
        Ends (m.tellFailure t₁ notFound) t₂ s₂ vs () t' s' := by
  intro b notFound
  have hrun : (b.alone Builder.nowhere Builder.untouched).map (fun p => (p.1, p.2.2.sent.length)) =
      some ((.error notFound : Outcome), 1) := by decide +kernel
  obtain ⟨⟨o, t', s'⟩, halone, hstop⟩ := Option.map_eq_some_iff.1 hrun
  obtain ⟨ho, hsent⟩ := Prod.mk.inj hstop
  obtain rfl : o = .error notFound := ho
  have hfinal : RetryConfig.Final ⟨3, .none, false⟩ notFound := .inr (.inr (.inr ⟨rfl, by decide⟩))
  obtain ⟨client, ws₀, t₁, s₁, m, ws, hbuild, hm, hends⟩ := Builder.ends_of_alone halone
  obtain ⟨rule, -, hall⟩ := final_failures_end b Builder.nowhere ⟨3, .none, false⟩ rfl rfl hbuild
  obtain ⟨legs, us, vs, r, t₂, s₂, hws, hmade, hend⟩ := hall m hm [] _ _ _ .execute _ _ _ _ _ _ hends
  obtain ⟨⟨call, o, hmem⟩, -⟩ := Builder.attempts_of_answering hmade
  obtain ⟨-, rfl⟩ := Builder.outcome_of_answering hbuild hm hmade (by decide) "x" (by rfl) hmem
  obtain ⟨before, after, rfl⟩ := List.append_of_mem hmem
  obtain ⟨rfl, rfl, -, htold⟩ := hend before call notFound after rfl hfinal
  exact ⟨client, ws₀, t₁, s₁, m, ws, t', s', hbuild, hm, hends, hsent, hfinal, rule, before, call, us, vs, t₂,
    s₂, hws, hmade, htold⟩

end ResilientClient
