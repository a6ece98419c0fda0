/-
What a builder makes. A client that is built has one method for each declared endpoint, in order, and its
pipeline is put together from the same parts for all of them (`methods_of_build`). Breakers that are missing are
created while it is built (`breaker_of_build`).
-/
import ResilientClient.Client.Builder
import ResilientClient.Proofs.Breaker.Registry
import ResilientClient.Proofs.Pipeline.Record

open ResilientClient.Fiber

namespace ResilientClient.Builder

variable {ε : Type}

/-- The key of the breaker of a method, if there are breakers. -/
def breakerKey? (b : Builder ε) (method : String) : Option String := b.registry?.map fun _ => b.breakerKey method

/-- The service of a method inside retries and balancing: an attempt, behind its breaker if there are
breakers. -/
def backing (b : Builder ε) (exchange : Exchange ε) (method : String) : Service ε :=
  match b.registry? with
  | some registry =>
    Pipeline.guarding (b.breakerKey method) registry.config.executionTimeout
      (b.fallbacks b.target method) (Pipeline.executing exchange)
  | none => Pipeline.executing exchange

/-- The method of an endpoint, with its whole pipeline. -/
def complete (b : Builder ε) (around : Surroundings ε) (exchange : Exchange ε) (endpoint : Endpoint) :
    Method ε where
  endpoint
  target := b.target
  service := b.retried around (b.balanced (b.backing exchange endpoint.key))
  listeners := b.allListeners
  maxBodySize := b.config.maxBodySize

section Paths

variable {b : Builder ε} {around : Surroundings ε} {exchange : Exchange ε} {t t' : Instant}
  {s s' : World ε} {ws : List (Write (World ε))}

theorem ends_method {endpoint : Endpoint} {m : Method ε}
    (h : Ends (b.method around exchange endpoint) t s ws m t' s') :
    m = b.complete around exchange endpoint := by
  unfold method at h
  obtain ⟨us, inner, t₁, s₁, vs, -, hguard, hrest⟩ := (ends_andThen _ _).1 h
  obtain ⟨us', _, t₂, s₂, vs', -, -, hend⟩ := (ends_andThen _ _).1 hrest
  obtain ⟨-, rfl, -, -⟩ := ends_done.1 hend
  have hinner : inner = b.backing exchange endpoint.key := by
    unfold backing
    cases hregistry : b.registry? with
    | none =>
      rw [hregistry] at hguard
      exact (ends_done.1 hguard).2.1
    | some registry =>
      rw [hregistry] at hguard
      obtain ⟨us₁, _, t₁, s₁, vs₁, -, -, hguard⟩ := (ends_andThen _ _).1 hguard
      obtain ⟨us₂, _, t₂, s₂, vs₂, -, -, hguard⟩ := (ends_andThen _ _).1 hguard
      obtain ⟨us₃, _, t₃, s₃, vs₃, -, -, hguard⟩ := (ends_andThen _ _).1 hguard
      exact (ends_done.1 hguard).2.1
  rw [hinner]
  rfl

theorem ends_assemble {endpoints : List Endpoint} : ∀ {t : Instant} {s : World ε}
    {ws : List (Write (World ε))} {methods : List (Method ε)},
    Ends (b.assemble around exchange endpoints) t s ws methods t' s' →
      methods = endpoints.map (b.complete around exchange) := by
  induction endpoints with
  | nil =>
    intro t s ws methods h
    exact (ends_done.1 h).2.1
  | cons endpoint rest ih =>
    intro t s ws methods h
    obtain ⟨us, m, t₁, s₁, vs, -, hmethod, hrest⟩ := (ends_andThen _ _).1 h
    obtain ⟨us', ms, t₂, s₂, vs', -, hassemble, hend⟩ := (ends_andThen _ _).1 hrest
    obtain ⟨-, rfl, rfl, rfl⟩ := ends_done.1 hend
    rw [ends_method hmethod, ih hassemble]
    rfl

/-- The methods of a client that is built are those of the checked endpoints. -/
theorem methods_of_build {client : Client ε}
    (h : Ends (b.build around) t s ws (.ok client) t' s') :
    ∃ endpoints rule, b.checked = .ok endpoints ∧ HeaderRule.userAgent b.config.userAgent = .ok rule ∧
      client.methods = endpoints.map (b.complete around (b.exchange around rule)) := by
  unfold build at h
  cases hchecked : b.checked with
  | error e =>
    rw [hchecked] at h
    cases (ends_done.1 h).2.1
  | ok endpoints =>
    rw [hchecked] at h
    obtain ⟨us, _, t₁, s₁, vs, -, -, hrest⟩ := (ends_andThen _ _).1 h
    cases hrule : HeaderRule.userAgent b.config.userAgent with
    | error e =>
      rw [hrule] at hrest
      cases (ends_done.1 hrest).2.1
    | ok rule =>
      rw [hrule] at hrest
      obtain ⟨us₁, _, t₁, s₁, vs₁, -, -, hrest⟩ := (ends_andThen _ _).1 hrest
      obtain ⟨us₂, methods, t₂, s₂, vs₂, -, hassemble, hend⟩ := (ends_andThen _ _).1 hrest
      obtain ⟨-, hclient, -, -⟩ := ends_done.1 hend
      cases hclient
      exact ⟨endpoints, rule, rfl, rfl, ends_assemble hassemble⟩

/-- Checked methods have different keys. -/
theorem keys_of_checkEndpoints {seen : List String} {endpoints : List Endpoint}
    (h : checkEndpoints seen endpoints = .ok ()) :
    (endpoints.map Endpoint.key).Nodup ∧ ∀ endpoint ∈ endpoints, endpoint.key ∉ seen := by
  induction endpoints generalizing seen with
  | nil => exact ⟨List.nodup_nil, fun _ hmem => absurd hmem List.not_mem_nil⟩
  | cons first rest ih =>
    unfold checkEndpoints at h
    split at h
    · cases h
    · split at h
      · cases h
      · rename_i hfirst
        obtain ⟨hrest, hseen⟩ := ih h
        refine ⟨List.nodup_cons.2 ⟨fun hmem => ?_, hrest⟩, fun endpoint hmem hold => ?_⟩
        · obtain ⟨endpoint, hlater, hkey⟩ := List.mem_map.1 hmem
          exact hseen endpoint hlater (hkey ▸ List.mem_cons_self)
        · rcases List.mem_cons.1 hmem with rfl | hmem
          · exact hfirst hold
          · exact hseen endpoint hmem (List.mem_cons_of_mem _ hold)

/-- The methods of a client have different keys. -/
theorem eq_of_key_eq {client : Client ε} (h : Ends (b.build around) t s ws (.ok client) t' s') {m m' : Method ε}
    (hm : m ∈ client.methods) (hm' : m' ∈ client.methods) (hkey : m.key = m'.key) : m = m' := by
  obtain ⟨endpoints, rule, hchecked, -, hmethods⟩ := methods_of_build h
  have hcheck : checkEndpoints [] endpoints = .ok () := by
    unfold checked at hchecked
    split at hchecked
    · cases hchecked
    · split at hchecked
      · cases hchecked
      · rename_i hcheck
        split at hchecked
        · cases hchecked
        · cases hchecked
          exact hcheck
  rw [hmethods] at hm hm'
  obtain ⟨endpoint, hmem, rfl⟩ := List.mem_map.1 hm
  obtain ⟨endpoint', hmem', rfl⟩ := List.mem_map.1 hm'
  obtain rfl := List.inj_on_of_nodup_map (keys_of_checkEndpoints hcheck).1 hmem hmem' hkey
  rfl

end Paths

/-! ## Breakers -/

section Breakers

variable {b : Builder ε} {around : Surroundings ε} {exchange : Exchange ε} {registry : BreakerRegistry}
  {t t' : Instant} {s s' : World ε} {ws : List (Write (World ε))}

/-- The breaker of a method is asked for, which takes no time. -/
theorem breakers_of_method (hregistry : b.registry? = some registry) {endpoint : Endpoint} {m : Method ε}
    (h : Ends (b.method around exchange endpoint) t s ws m t' s') :
    t' = t ∧ s'.breakers = (s.breakers.forKey (b.breakerKey endpoint.key) t).2 := by
  unfold method at h
  rw [hregistry] at h
  obtain ⟨us, inner, t₁, s₁, vs, -, hguard, hrest⟩ := (ends_andThen _ _).1 h
  obtain ⟨us', _, t₂, s₂, vs', -, hlog, hend⟩ := (ends_andThen _ _).1 hrest
  obtain ⟨-, -, rfl, rfl⟩ := ends_done.1 hend
  obtain ⟨rfl, rfl, -⟩ := ends_note hlog
  obtain ⟨_, _, t₃, s₃, _, -, hasked, hguard⟩ := (ends_andThen _ _).1 hguard
  obtain ⟨rfl, rfl, -⟩ := ends_note hasked
  obtain ⟨_, _, t₄, s₄, _, -, hcreated, hguard⟩ := (ends_andThen _ _).1 hguard
  obtain ⟨-, -, rfl, rfl⟩ := ends_modifyGet.1 hcreated
  obtain ⟨_, _, t₅, s₅, _, -, hfallback, hguard⟩ := (ends_andThen _ _).1 hguard
  obtain ⟨rfl, rfl, -⟩ := ends_note hfallback
  obtain ⟨-, -, rfl, rfl⟩ := ends_done.1 hguard
  exact ⟨rfl, rfl⟩

/-- A breaker is created for every key that has none. -/
theorem breakers_of_assemble (hregistry : b.registry? = some registry) (key : String) {endpoints : List Endpoint} :
    ∀ {t : Instant} {s : World ε} {ws : List (Write (World ε))} {methods : List (Method ε)},
      Ends (b.assemble around exchange endpoints) t s ws methods t' s' →
      t' = t ∧ s'.breakers.get? key = (s.breakers.get? key).or
        (if key ∈ endpoints.map (fun e => b.breakerKey e.key) then some (.create s.breakers.config t) else none) := by
  induction endpoints with
  | nil =>
    intro t s ws methods h
    obtain ⟨-, -, rfl, rfl⟩ := ends_done.1 h
    simp
  | cons endpoint rest ih =>
    intro t s ws methods h
    obtain ⟨us, m, t₁, s₁, vs, -, hmethod, hrest⟩ := (ends_andThen _ _).1 h
    obtain ⟨us', ms, t₂, s₂, vs', -, hassemble, hend⟩ := (ends_andThen _ _).1 hrest
    obtain ⟨-, -, rfl, rfl⟩ := ends_done.1 hend
    obtain ⟨rfl, hfirst⟩ := breakers_of_method hregistry hmethod
    obtain ⟨rfl, hget⟩ := ih hassemble
    rw [hfirst, BreakerRegistry.get?_forKey, BreakerRegistry.config_forKey] at hget
    refine ⟨rfl, hget.trans ?_⟩
    cases s.breakers.get? key with
    | some breaker => rfl
    | none =>
      by_cases hkey : key = b.breakerKey endpoint.key
      · simp [hkey]
      · simp [hkey]

/-- To build a client takes no time. Afterwards the breaker of a method is a new one, if none was given. -/
theorem breaker_of_build (hregistry : b.registry? = some registry) {client : Client ε}
    (h : Ends (b.build around) t s ws (.ok client) t' s') :
    t' = t ∧ ∀ m ∈ client.methods, registry.get? (b.breakerKey m.key) = none →
      s'.breakers.get? (b.breakerKey m.key) = some (.create registry.config t) := by
  obtain ⟨endpoints, rule, hchecked, hrule, hmethods⟩ := methods_of_build h
  unfold build at h
  rw [hchecked] at h
  obtain ⟨us, _, t₁, s₁, vs, -, hnote, hrest⟩ := (ends_andThen _ _).1 h
  obtain ⟨rfl, rfl, -⟩ := ends_note hnote
  rw [hrule] at hrest
  obtain ⟨us₁, _, t₂, s₂, vs₁, -, hinstall, hrest⟩ := (ends_andThen _ _).1 hrest
  obtain ⟨-, rfl, rfl⟩ := ends_modify.1 hinstall
  obtain ⟨us₂, methods, t₃, s₃, vs₂, -, hassemble, hend⟩ := (ends_andThen _ _).1 hrest
  obtain ⟨-, -, rfl, rfl⟩ := ends_done.1 hend
  rw [hregistry] at hassemble
  refine ⟨(breakers_of_assemble hregistry "" hassemble).1, fun m hm hnone => ?_⟩
  rw [hmethods] at hm
  obtain ⟨endpoint, hmem, rfl⟩ := List.mem_map.1 hm
  have hkey : b.breakerKey (b.complete around (b.exchange around rule) endpoint).key ∈
      endpoints.map fun e => b.breakerKey e.key := List.mem_map_of_mem hmem
  rw [(breakers_of_assemble hregistry _ hassemble).2, hnone, if_pos hkey]
  rfl

end Breakers

end ResilientClient.Builder
