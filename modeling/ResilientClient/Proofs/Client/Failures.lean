/-
Failures that an invocation returns. Whatever a method is invoked for, a failure in the result is that of its
dispatch, or one that is found when the body of the response is handed over (`Yields.sourced`).
-/
import ResilientClient.Proofs.Client.Scanning
import ResilientClient.Proofs.Pipeline.Bare

open ResilientClient.Fiber

namespace ResilientClient.Method

variable {ε α β : Type}

/-- The failure that a result is. -/
def failure : Except Error α → List Error
  | .ok _ => []
  | .error e => [e]

/-- The ways to invoke a method, each with the failures that a result of it holds. -/
inductive Yields (m : Method ε) (args : List Argument) : {α : Type} → Stage ε α → (α → List Error) → Prop
  | execute : Yields m args (m.execute args) failure
  | single : Yields m args (m.invokeSingle args) failure
  | json {β : Type} (decoder : Json.Decoder β) : Yields m args (m.invokeJson decoder args) failure
  | declared : Yields m args (m.invoke args) failure
  | stream (limit : Option Nat) :
      Yields m args (m.invokeStream args limit) fun p => p.1.flatMap failure
  | ndjson {β : Type} (decoder : Json.Decoder β) (limit : Option Nat) :
      Yields m args (m.invokeNdjson decoder args limit) fun values => values.flatMap failure

/-- Where a failure comes from: the dispatch or the body of its response, a body that is too large, or a text
that cannot be decoded. -/
inductive Sourced (m : Method ε) (r : Outcome) : Error → Prop
  | item {e : Error} : .failure e ∈ itemsOf r → Sourced m r e
  | tooLarge (actual : Nat) : Sourced m r (.bodyTooLarge m.maxBodySize actual)
  | json (fault : JsonFault) : Sourced m r (.json fault)

section Sources

variable {m : Method ε} {args : List Argument} {x : Stage ε α} {failures : α → List Error} {started : Instant}
  {body : BodyStream} {t t' : Instant} {s s' : World ε} {ws : List (Write (World ε))} {r : Outcome} {e : Error}

theorem mem_failure {result : Except Error β} (h : e ∈ failure result) : result = .error e := by
  cases result with
  | ok b => cases h
  | error e' => rw [List.mem_singleton.1 h]

theorem mem_flatMap_failure {results : List (Except Error β)} : e ∈ results.flatMap failure ↔ .error e ∈ results := by
  rw [List.mem_flatMap]
  constructor
  · rintro ⟨result, hmem, he⟩
    rwa [mem_failure he] at hmem
  · exact fun hmem => ⟨.error e, hmem, List.mem_cons_self⟩

/-- An observed work ends with the result of the work. -/
theorem ends_observed {work : Stage ε (Except Error β)} {result : Except Error β}
    (h : Ends (m.observed work) t s ws result t' s') :
    ∃ us t₁ s₁ vs, ws = us ++ vs ∧ Ends work t s us result t₁ s₁ := by
  obtain ⟨us₀, started, t₀, s₀, vs₀, rfl, hnow, hrest⟩ := (ends_andThen _ _).1 h
  obtain ⟨rfl, rfl, rfl, rfl⟩ := ends_now.1 hnow
  obtain ⟨us, found, t₁, s₁, vs, rfl, hwork, hend⟩ := (ends_andThen _ _).1 hrest
  refine ⟨us, t₁, s₁, vs, rfl, ?_⟩
  cases found with
  | ok b =>
    obtain ⟨-, rfl, -, -⟩ := ends_done.1 hend
    exact hwork
  | error e =>
    obtain ⟨us', _, t₂, s₂, vs', -, -, hdone⟩ := (ends_andThen _ _).1 hend
    obtain ⟨-, rfl, -, -⟩ := ends_done.1 hdone
    exact hwork

theorem sourced_of_gather (h : Ends (m.gather started (itemsOf r)) t s ws (.error e) t' s') : m.Sourced r e := by
  obtain ⟨us, result, t₁, s₁, vs, -, hread, hend⟩ := (ends_andThen _ _).1 h
  cases result with
  | error e' =>
    obtain ⟨us', _, t₂, s₂, vs', -, -, hdone⟩ := (ends_andThen _ _).1 hend
    cases (ends_done.1 hdone).2.1
    rcases failure_of_readAll hread with hmem | ⟨actual, rfl⟩
    · exact .item hmem
    · exact .tooLarge actual
  | ok bytes =>
    dsimp only at hend
    split at hend
    · cases (ends_done.1 hend).2.1
    · obtain ⟨us', _, t₂, s₂, vs', -, -, hdone⟩ := (ends_andThen _ _).1 hend
      cases (ends_done.1 hdone).2.1

/-- The failures that are handed over are among those of the body. -/
theorem mem_of_deliver {limit : Option Nat} {p : List (Except Error Bytes) × Bool}
    (h : Ends (m.deliver started limit body) t s ws p t' s') (he : .error e ∈ p.1) : .failure e ∈ body := by
  fun_induction m.deliver started limit body generalizing t t' s s' ws p with
  | case1 | case2 =>
    obtain ⟨-, rfl, -, -⟩ := ends_done.1 h
    cases he
  | case3 limit d rest _ ih =>
    obtain ⟨us, _, t₁, s₁, vs, -, -, hrest⟩ := (ends_andThen _ _).1 h
    exact List.mem_cons_of_mem _ (ih hrest he)
  | case4 limit bytes rest _ ih =>
    obtain ⟨us, _, t₁, s₁, vs, -, -, hrest⟩ := (ends_andThen _ _).1 h
    obtain ⟨us', later, t₂, s₂, vs', -, hlater, hdone⟩ := (ends_andThen _ _).1 hrest
    obtain ⟨-, rfl, -, -⟩ := ends_done.1 hdone
    refine List.mem_cons_of_mem _ (ih hlater ?_)
    simpa using he
  | case5 =>
    obtain ⟨us, _, t₁, s₁, vs, -, -, hdone⟩ := (ends_andThen _ _).1 h
    obtain ⟨-, rfl, -, -⟩ := ends_done.1 hdone
    cases List.mem_singleton.1 he
    exact List.mem_cons_self

theorem json_of_decode {decoder : Json.Decoder β} {line : Bytes} (h : Ndjson.decode decoder line = .error e) :
    ∃ fault, e = .json fault := by
  unfold Ndjson.decode at h
  split at h
  · cases h
  · cases h
    exact ⟨_, rfl⟩

theorem mem_of_mem_takeUpTo {limit : Option Nat} {values : List β} {b : β} (h : b ∈ (takeUpTo limit values).1) :
    b ∈ values := by
  cases limit with
  | none => exact h
  | some n => exact List.mem_of_mem_take h

theorem json_of_mem_decoded {decoder : Json.Decoder β} {limit : Option Nat} {lines : List Bytes}
    (h : .error e ∈ (takeUpTo limit ((Ndjson.significant lines).map (Ndjson.decode decoder))).1) :
    ∃ fault, e = .json fault := by
  obtain ⟨line, -, hline⟩ := List.mem_map.1 (mem_of_mem_takeUpTo h)
  exact json_of_decode hline

/-- The failures among the values of the lines are those of the body and of the decoder. -/
theorem mem_of_deliverLines {decoder : Json.Decoder β} {line : Bytes} {limit : Option Nat}
    {values : List (Except Error β)}
    (h : Ends (m.deliverLines decoder started line limit body) t s ws values t' s') (he : .error e ∈ values) :
    .failure e ∈ body ∨ ∃ fault, e = .json fault := by
  fun_induction m.deliverLines decoder started line limit body generalizing t t' s s' ws values with
  | case1 =>
    obtain ⟨-, rfl, -, -⟩ := ends_done.1 h
    cases he
  | case2 =>
    obtain ⟨-, rfl, -, -⟩ := ends_done.1 h
    exact .inr (json_of_mem_decoded he)
  | case3 _ limit d rest _ ih =>
    obtain ⟨us, _, t₁, s₁, vs, -, -, hrest⟩ := (ends_andThen _ _).1 h
    exact (ih hrest he).imp_left (List.mem_cons_of_mem _)
  | case4 _ limit bytes rest _ ih =>
    obtain ⟨us, _, t₁, s₁, vs, -, -, hrest⟩ := (ends_andThen _ _).1 h
    obtain ⟨us', later, t₂, s₂, vs', -, hlater, hdone⟩ := (ends_andThen _ _).1 hrest
    obtain ⟨-, rfl, -, -⟩ := ends_done.1 hdone
    rcases List.mem_append.1 he with hnow | hmem
    · exact .inr (json_of_mem_decoded hnow)
    · exact (ih _ _ hlater hmem).imp_left (List.mem_cons_of_mem _)
  | case5 =>
    obtain ⟨us, _, t₁, s₁, vs, -, -, hdone⟩ := (ends_andThen _ _).1 h
    obtain ⟨-, rfl, -, -⟩ := ends_done.1 hdone
    cases List.mem_singleton.1 he
    exact .inl List.mem_cons_self

/-- The dispatch of an invocation, on whose outcome its failures depend. -/
def SourcedIn (m : Method ε) (args : List Argument) (t : Instant) (s : World ε) (ws : List (Write (World ε)))
    (e : Error) : Prop :=
  ∃ us r t₁ s₁ vs, ws = us ++ vs ∧ Ends (m.dispatch args) t s us r t₁ s₁ ∧ m.Sourced r e

theorem sourced_of_invokeSingle (h : Ends (m.invokeSingle args) t s ws (.error e) t' s') :
    m.SourcedIn args t s ws e := by
  rw [invokeSingle_eq_startStream] at h
  obtain ⟨us, r, t₁, s₁, vs, rfl, hdispatch, hgather⟩ := ends_startStream.1 h
  exact ⟨us, r, t₁, s₁, vs, rfl, hdispatch, sourced_of_gather hgather⟩

theorem SourcedIn.append {vs : List (Write (World ε))} (h : m.SourcedIn args t s ws e) :
    m.SourcedIn args t s (ws ++ vs) e := by
  obtain ⟨us, r, t₁, s₁, vs', rfl, hsource⟩ := h
  exact ⟨us, r, t₁, s₁, vs' ++ vs, List.append_assoc _ _ _, hsource⟩

/-- A failure in the result of an invocation has its source in the dispatch. -/
theorem Yields.sourced (h : m.Yields args x failures) {a : α} (hends : Ends x t s ws a t' s')
    (he : e ∈ failures a) : m.SourcedIn args t s ws e := by
  cases h with
  | execute =>
    cases mem_failure he
    obtain ⟨us, t₁, s₁, vs, rfl, hdispatch⟩ := ends_observed hends
    exact ⟨us, .error e, t₁, s₁, vs, rfl, hdispatch, .item List.mem_cons_self⟩
  | single =>
    cases mem_failure he
    exact sourced_of_invokeSingle hends
  | json decoder =>
    cases mem_failure he
    obtain ⟨us, result, t₁, s₁, vs, rfl, hsingle, hend⟩ := (ends_andThen _ _).1 hends
    rcases result with e' | (_ | bytes)
    · cases (ends_done.1 hend).2.1
      exact (sourced_of_invokeSingle hsingle).append
    · cases (ends_done.1 hend).2.1
    · obtain ⟨-, hdecode, -, -⟩ := ends_done.1 hend
      rw [invokeSingle_eq_startStream] at hsingle
      obtain ⟨us', r, t₂, s₂, vs', rfl, hdispatch, -⟩ := ends_startStream.1 hsingle
      refine ⟨us', r, t₂, s₂, vs' ++ vs, List.append_assoc _ _ _, hdispatch, ?_⟩
      cases hvalue : Ndjson.decode decoder bytes with
      | ok b =>
        rw [hvalue] at hdecode
        cases hdecode
      | error e' =>
        rw [hvalue] at hdecode
        cases hdecode
        obtain ⟨fault, rfl⟩ := json_of_decode hvalue
        exact .json fault
  | declared =>
    cases mem_failure he
    unfold invoke at hends
    split at hends
    · cases (ends_done.1 hends).2.1
    · obtain ⟨us, result, t₁, s₁, vs, rfl, hsingle, hend⟩ := (ends_andThen _ _).1 hends
      cases result with
      | ok element => cases (ends_done.1 hend).2.1
      | error e' =>
        cases (ends_done.1 hend).2.1
        exact (sourced_of_invokeSingle hsingle).append
  | stream limit =>
    unfold invokeStream at hends
    split at hends
    · obtain ⟨-, rfl, -, -⟩ := ends_done.1 hends
      cases he
    · obtain ⟨us, r, t₁, s₁, vs, rfl, hdispatch, hdeliver⟩ := ends_startStream.1 hends
      have hmem := mem_of_deliver hdeliver (mem_flatMap_failure.1 he)
      exact ⟨us, r, t₁, s₁, vs, rfl, hdispatch, .item hmem⟩
  | ndjson decoder limit =>
    unfold invokeNdjson at hends
    split at hends
    · obtain ⟨-, rfl, -, -⟩ := ends_done.1 hends
      cases he
    · obtain ⟨us, r, t₁, s₁, vs, rfl, hdispatch, hdeliver⟩ := ends_startStream.1 hends
      refine ⟨us, r, t₁, s₁, vs, rfl, hdispatch, ?_⟩
      rcases mem_of_deliverLines hdeliver (mem_flatMap_failure.1 he) with hmem | ⟨fault, rfl⟩
      · exact .item hmem
      · exact .json fault

end Sources

end ResilientClient.Method
