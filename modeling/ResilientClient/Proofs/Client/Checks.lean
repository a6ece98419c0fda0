/-
The checks of a builder. A client is built exactly if the builder is sound, and it has then one method for each
declared endpoint, found under its key. Otherwise the first fault in the order of the checks is reported, and the
world is as it was: nobody has been asked for a breaker or a fallback (`build_by_checks`).
-/
import ResilientClient.Proofs.Client.Build

namespace ResilientClient

/-! ## Endpoints one after the other -/

namespace Endpoint

/-- The declared result is one that clients serve. -/
def Supported (e : Endpoint) : Prop := ∀ shape, e.returns ≠ .unsupported shape

/-- All results are served, and no two keys are the same. -/
structure Clean (endpoints : List Endpoint) : Prop where
  supported : ∀ e ∈ endpoints, e.Supported
  keys : (endpoints.map Endpoint.key).Nodup

variable {endpoints : List Endpoint} {e : Endpoint}

theorem validate_of_supported (h : e.Supported) : e.validate = .ok () := by
  unfold validate
  split
  · rename_i shape hshape
    exact absurd hshape (h shape)
  · rfl

theorem clean_nil : Clean [] := ⟨nofun, List.nodup_nil⟩

theorem clean_concat : Clean (endpoints ++ [e]) ↔
    Clean endpoints ∧ e.Supported ∧ e.key ∉ endpoints.map Endpoint.key := by
  constructor
  · rintro ⟨hsupported, hkeys⟩
    rw [List.map_append, List.map_singleton, ← List.concat_eq_append, List.nodup_concat] at hkeys
    obtain ⟨hnew, hkeys⟩ := hkeys
    exact ⟨⟨fun other hother => hsupported other (List.mem_append_left _ hother), hkeys⟩,
      hsupported e (by simp), hnew⟩
  · rintro ⟨⟨hsupported, hkeys⟩, hlast, hnew⟩
    refine ⟨fun other hother => ?_, ?_⟩
    · rcases List.mem_append.1 hother with hother | hother
      · exact hsupported other hother
      · exact List.mem_singleton.1 hother ▸ hlast
    · rw [List.map_append, List.map_singleton, ← List.concat_eq_append]
      exact hkeys.concat hnew

/-- A list that is not clean has a first endpoint that spoils it. -/
theorem clean_or_spoiled (endpoints : List Endpoint) : Clean endpoints ∨ ∃ before e after,
    endpoints = before ++ e :: after ∧ Clean before ∧
      ((∃ shape, e.returns = .unsupported shape) ∨ e.Supported ∧ e.key ∈ before.map Endpoint.key) := by
  induction endpoints using List.reverseRecOn with
  | nil => exact .inl clean_nil
  | append_singleton endpoints e ih =>
    rcases ih with hclean | ⟨before, spoiler, after, rfl, hclean, hspoils⟩
    · by_cases hsupported : e.Supported
      · by_cases hkey : e.key ∈ endpoints.map Endpoint.key
        · exact .inr ⟨endpoints, e, [], rfl, hclean, .inr ⟨hsupported, hkey⟩⟩
        · exact .inl (clean_concat.2 ⟨hclean, hsupported, hkey⟩)
      · unfold Supported at hsupported
        push Not at hsupported
        exact .inr ⟨endpoints, e, [], rfl, hclean, .inl hsupported⟩
    · exact .inr ⟨before, spoiler, after ++ [e], by simp, hclean, hspoils⟩

end Endpoint

open ResilientClient.Endpoint ResilientClient.Fiber

namespace Builder

variable {ε : Type}

/-- Endpoints that are clean leave nothing behind but their keys. -/
theorem checkEndpoints_append {before : List Endpoint} (h : Clean before) (rest : List Endpoint) :
    checkEndpoints [] (before ++ rest) = checkEndpoints (before.map Endpoint.key).reverse rest := by
  induction before using List.reverseRecOn generalizing rest with
  | nil => rfl
  | append_singleton before e ih =>
    obtain ⟨hclean, hsupported, hnew⟩ := clean_concat.1 h
    have hnew : e.key ∉ (before.map Endpoint.key).reverse := by rwa [List.mem_reverse]
    rw [List.append_assoc, ih hclean, List.singleton_append, checkEndpoints, validate_of_supported hsupported]
    dsimp only
    rw [if_neg hnew, List.map_append, List.reverse_append]
    rfl

theorem checkEndpoints_of_clean {endpoints : List Endpoint} (h : Clean endpoints) :
    checkEndpoints [] endpoints = .ok () := by
  have hall := checkEndpoints_append h []
  rwa [List.append_nil] at hall

/-! ## Contracts -/

section Contracts

variable {contracts : List (Except Error (List Endpoint))}

theorem mapM_id_ok (parsed : List (List Endpoint)) :
    (parsed.map Except.ok).mapM id = (.ok parsed : Except Error _) := by
  induction parsed with
  | nil => rfl
  | cons endpoints parsed ih =>
    rw [List.map_cons, List.mapM_cons, ih]
    rfl

theorem mapM_id_error (parsed : List (List Endpoint)) (e : Error) (after : List (Except Error (List Endpoint))) :
    (parsed.map Except.ok ++ Except.error e :: after).mapM id = .error e := by
  induction parsed with
  | nil => rfl
  | cons endpoints parsed ih =>
    rw [List.map_cons, List.cons_append, List.mapM_cons, ih]
    rfl

/-- All contracts are read, or there is a first one that is not. -/
theorem read_or_failed (contracts : List (Except Error (List Endpoint))) :
    (∃ parsed : List (List Endpoint), contracts = parsed.map .ok) ∨
      ∃ (parsed : List (List Endpoint)) (e : Error) (after : List (Except Error (List Endpoint))),
        contracts = parsed.map .ok ++ .error e :: after := by
  induction contracts with
  | nil => exact .inl ⟨[], rfl⟩
  | cons contract contracts ih =>
    cases contract with
    | error e => exact .inr ⟨[], e, contracts, rfl⟩
    | ok endpoints =>
      rcases ih with ⟨parsed, rfl⟩ | ⟨parsed, e, after, rfl⟩
      · exact .inl ⟨endpoints :: parsed, rfl⟩
      · exact .inr ⟨endpoints :: parsed, e, after, rfl⟩

end Contracts

/-! ## Faults -/

/-- The endpoints of a builder are those declared on it and those of its contracts, in order, all of which are read. -/
def Declares (b : Builder ε) (endpoints : List Endpoint) : Prop :=
  ∃ parsed : List (List Endpoint), b.contracts = parsed.map .ok ∧ endpoints = b.methods ++ parsed.flatten

/-- The target is a URL, or there is somebody to ask for the instances of a service. -/
def Reachable (b : Builder ε) : Prop := (∃ base, b.target = .url base) ∨ ∃ resolver, b.resolver = some resolver

/-- The text for the `User-Agent` can stand in a header. -/
def AgentValid (b : Builder ε) : Prop := ∀ byte ∈ Bytes.ofText b.config.userAgent, Http.isValueByte byte = true

/-- There is nothing to find fault with, and these are the endpoints. -/
structure Sound (b : Builder ε) (endpoints : List Endpoint) : Prop where
  declares : b.Declares endpoints
  clean : Clean endpoints
  reachable : b.Reachable
  agent : b.AgentValid

/-- The first fault of a builder, in the order of the checks. -/
inductive FirstFault (b : Builder ε) : Error → Prop
  /-- A contract cannot be read. -/
  | contract {parsed : List (List Endpoint)} {e : Error} {after : List (Except Error (List Endpoint))} :
      b.contracts = parsed.map .ok ++ .error e :: after → FirstFault b e
  /-- A result is not served. -/
  | shape {before after : List Endpoint} {e : Endpoint} {shape : String} :
      b.Declares (before ++ e :: after) → Clean before → e.returns = .unsupported shape →
      FirstFault b (.unsupportedReturn e.key shape)
  /-- A key has been declared before. -/
  | twice {before after : List Endpoint} {e : Endpoint} :
      b.Declares (before ++ e :: after) → Clean before → e.Supported → e.key ∈ before.map Endpoint.key →
      FirstFault b (.configuration ("method '" ++ e.key ++ "' is declared twice"))
  /-- The target is a service whose instances nobody knows. -/
  | target {endpoints : List Endpoint} {service : String} :
      b.Declares endpoints → Clean endpoints → b.target = .service service → b.resolver = none →
      FirstFault b (.configuration ("target '" ++ service ++
        "' is a logical service but no server resolver is configured"))
  | agent {endpoints : List Endpoint} :
      b.Declares endpoints → Clean endpoints → b.Reachable → ¬ b.AgentValid → FirstFault b .invalidHeaderValue

/-- A builder is sound, or it has a first fault. -/
theorem sound_or_fault (b : Builder ε) : (∃ endpoints, b.Sound endpoints) ∨ ∃ e, b.FirstFault e := by
  rcases read_or_failed b.contracts with ⟨parsed, hparsed⟩ | ⟨parsed, e, after, hfailed⟩
  · have hdeclares : b.Declares (b.methods ++ parsed.flatten) := ⟨parsed, hparsed, rfl⟩
    rcases clean_or_spoiled (b.methods ++ parsed.flatten) with hclean | ⟨before, e, after, hsplit, hclean, hspoils⟩
    · by_cases hreachable : b.Reachable
      · by_cases hagent : b.AgentValid
        · exact .inl ⟨_, hdeclares, hclean, hreachable, hagent⟩
        · exact .inr ⟨_, .agent hdeclares hclean hreachable hagent⟩
      · unfold Reachable at hreachable
        rw [not_or] at hreachable
        obtain ⟨hurl, hresolver⟩ := hreachable
        cases htarget : b.target with
        | url base => exact absurd ⟨base, htarget⟩ hurl
        | service service =>
          have hnone : b.resolver = none :=
            Option.eq_none_iff_forall_ne_some.2 fun resolver h => hresolver ⟨resolver, h⟩
          exact .inr ⟨_, .target hdeclares hclean htarget hnone⟩
    · rw [hsplit] at hdeclares
      rcases hspoils with ⟨shape, hshape⟩ | ⟨hsupported, hkey⟩
      · exact .inr ⟨_, .shape hdeclares hclean hshape⟩
      · exact .inr ⟨_, .twice hdeclares hclean hsupported hkey⟩
  · exact .inr ⟨e, .contract hfailed⟩

/-! ## What the checks come to -/

section Checks

variable {b : Builder ε} {endpoints : List Endpoint} {e : Error}

theorem endpoints_of_declares (h : b.Declares endpoints) : b.endpoints = .ok endpoints := by
  obtain ⟨parsed, hparsed, rfl⟩ := h
  unfold Builder.endpoints
  rw [hparsed, mapM_id_ok]

theorem checkTarget_of_reachable (h : b.Reachable) : b.checkTarget = .ok () := by
  unfold checkTarget
  rcases h with ⟨base, htarget⟩ | ⟨resolver, hresolver⟩
  · simp [htarget, Target.isLogical]
  · simp [hresolver]

theorem checked_of_clean (hdeclares : b.Declares endpoints) (hclean : Clean endpoints) (hreachable : b.Reachable) :
    b.checked = .ok endpoints := by
  unfold checked
  rw [endpoints_of_declares hdeclares]
  dsimp only
  rw [checkEndpoints_of_clean hclean]
  dsimp only
  rw [checkTarget_of_reachable hreachable]

theorem agent_of_valid (h : b.AgentValid) :
    HeaderRule.userAgent b.config.userAgent = .ok ⟨.userAgent, ⟨Bytes.ofText b.config.userAgent⟩, false⟩ := by
  rw [HeaderRule.userAgent_eq, if_pos (List.all_eq_true.2 h)]

theorem agent_of_not_valid (h : ¬ b.AgentValid) :
    HeaderRule.userAgent b.config.userAgent = .error .invalidHeaderValue := by
  rw [HeaderRule.userAgent_eq, if_neg fun hall => h (List.all_eq_true.1 hall)]

end Checks

/-! ## Building -/

section Building

variable {b : Builder ε} (around : Surroundings ε) {transport : Transport ε} {endpoints : List Endpoint} {e : Error}

/-- To put a method together takes no time. -/
theorem run_method (exchange : Exchange ε) (endpoint : Endpoint) (t : Instant) (w : World ε) :
    ∃ w', (b.method around exchange endpoint).run t w = (b.complete around exchange endpoint, t, w') := by
  unfold method complete backing
  cases b.registry? with
  | none => exact ⟨_, rfl⟩
  | some registry => exact ⟨_, rfl⟩

theorem run_assemble (exchange : Exchange ε) (endpoints : List Endpoint) (t : Instant) : ∀ w : World ε,
    ∃ w', (b.assemble around exchange endpoints).run t w =
      (endpoints.map (b.complete around exchange), t, w') := by
  induction endpoints with
  | nil => exact fun w => ⟨w, rfl⟩
  | cons endpoint endpoints ih =>
    intro w
    obtain ⟨w₁, hmethod⟩ := run_method (b := b) around exchange endpoint t w
    obtain ⟨w₂, hrest⟩ := ih w₁
    refine ⟨w₂, ?_⟩
    rw [assemble, run_andThen, hmethod]
    dsimp only
    rw [run_andThen, hrest]
    rfl

/-- A checked builder with a transport of its own does nothing before the `User-Agent` is looked at. -/
theorem run_build_of_checked (htransport : b.transport = some transport) (h : b.checked = .ok endpoints) (t : Instant)
    (w : World ε) : (b.build around).run t w =
      match HeaderRule.userAgent b.config.userAgent with
      | .error e => (.error e, t, w)
      | .ok rule =>
        (b.installRegistry.andThen fun _ =>
          (b.assemble around (b.exchange around rule) endpoints).andThen fun methods =>
            .done (.ok ⟨b.target, methods⟩)).run t w := by
  have hlines : b.transportLines = [] := by
    unfold transportLines
    rw [htransport, Option.isSome_some, if_pos rfl]
  unfold build
  rw [h]
  dsimp only
  rw [hlines, run_andThen]
  cases HeaderRule.userAgent b.config.userAgent <;> rfl

theorem run_build_of_fault (htransport : b.transport = some transport) (h : b.FirstFault e) (t : Instant)
    (w : World ε) : (b.build around).run t w = (.error e, t, w) := by
  have hrefused : b.checked = .error e → (b.build around).run t w = (.error e, t, w) := by
    intro hchecked
    unfold build
    rw [hchecked]
    rfl
  cases h with
  | contract hcontracts =>
    refine hrefused ?_
    unfold checked endpoints
    rw [hcontracts, mapM_id_error]
  | @shape before after e shape hdeclares hclean hshape =>
    have hvalidate : e.validate = .error (.unsupportedReturn e.key shape) := by
      unfold validate
      rw [hshape]
    refine hrefused ?_
    unfold checked
    rw [endpoints_of_declares hdeclares]
    dsimp only
    rw [checkEndpoints_append hclean, checkEndpoints, hvalidate]
  | twice hdeclares hclean hsupported hkey =>
    refine hrefused ?_
    unfold checked
    rw [endpoints_of_declares hdeclares]
    dsimp only
    rw [checkEndpoints_append hclean, checkEndpoints, validate_of_supported hsupported]
    dsimp only
    rw [if_pos (List.mem_reverse.2 hkey)]
    rfl
  | target hdeclares hclean htarget hresolver =>
    refine hrefused ?_
    unfold checked
    rw [endpoints_of_declares hdeclares]
    dsimp only
    rw [checkEndpoints_of_clean hclean]
    dsimp only
    unfold checkTarget
    rw [htarget, hresolver]
    rfl
  | agent hdeclares hclean hreachable hagent =>
    rw [run_build_of_checked around htransport (checked_of_clean hdeclares hclean hreachable), agent_of_not_valid hagent]

theorem run_build_of_sound (htransport : b.transport = some transport) (h : b.Sound endpoints) (t : Instant)
    (w : World ε) : ∃ rule w', (b.build around).run t w =
      (.ok ⟨b.target, endpoints.map (b.complete around (b.exchange around rule))⟩, t, w') := by
  have hagent := agent_of_valid h.agent
  generalize (⟨.userAgent, ⟨Bytes.ofText b.config.userAgent⟩, false⟩ : HeaderRule) = rule at hagent
  have hinstall : (b.installRegistry.run t w).2.1 = t := rfl
  obtain ⟨w', hassemble⟩ := run_assemble (b := b) around (b.exchange around rule) endpoints t
    (b.installRegistry.run t w).2.2
  refine ⟨rule, w', ?_⟩
  rw [run_build_of_checked around htransport (checked_of_clean h.declares h.clean h.reachable), hagent]
  dsimp only
  rw [run_andThen, hinstall, run_andThen, hassemble]
  rfl

/-- Each method of clean endpoints is found under its key. -/
theorem method?_of_clean (hclean : Clean endpoints) (exchange : Exchange ε) (key : String) (m : Method ε) :
    (⟨b.target, endpoints.map (b.complete around exchange)⟩ : Client ε).method? key = some m ↔
      ∃ endpoint ∈ endpoints, endpoint.key = key ∧ m = b.complete around exchange endpoint := by
  have hfind : (⟨b.target, endpoints.map (b.complete around exchange)⟩ : Client ε).method? key =
      (endpoints.find? fun endpoint => endpoint.key == key).map (b.complete around exchange) := by
    unfold Client.method?
    rw [List.find?_map]
    rfl
  rw [hfind, Option.map_eq_some_iff]
  constructor
  · rintro ⟨endpoint, hendpoint, rfl⟩
    exact ⟨endpoint, List.mem_of_find?_eq_some hendpoint, by simpa using List.find?_some hendpoint, rfl⟩
  · rintro ⟨endpoint, hmem, rfl, rfl⟩
    refine ⟨endpoint, ?_, rfl⟩
    cases hfound : endpoints.find? fun other => other.key == endpoint.key with
    | none =>
      have hall := List.find?_eq_none.1 hfound endpoint hmem
      simp at hall
    | some other =>
      have hkey : other.key = endpoint.key := by simpa using List.find?_some hfound
      rw [List.inj_on_of_nodup_map hclean.keys (List.mem_of_find?_eq_some hfound) hmem hkey]

end Building

/-- A builder with a transport of its own builds a client exactly if it is sound. The client has one method for each
declared endpoint, and finds it under its key. Otherwise the building fails with the first fault in the order of the
checks, it takes no time, and the world is what it was: nobody has been asked for a breaker or a fallback. -/
theorem build_by_checks (b : Builder ε) (around : Surroundings ε) {transport : Transport ε}
    (htransport : b.transport = some transport) (t : Instant) (w : World ε) :
    ((∃ client t' w', (b.build around).run t w = (.ok client, t', w')) ↔ ∃ endpoints, b.Sound endpoints) ∧
    (∀ client t' w', (b.build around).run t w = (.ok client, t', w') → ∃ endpoints, b.Sound endpoints ∧
      client.target = b.target ∧ client.methods.map Method.endpoint = endpoints ∧
      (∀ key m, client.method? key = some m → m.endpoint ∈ endpoints ∧ m.endpoint.key = key) ∧
      ∀ endpoint ∈ endpoints, ∃ m, client.method? endpoint.key = some m ∧ m.endpoint = endpoint) ∧
    ∀ e t' w', (b.build around).run t w = (.error e, t', w') ↔ b.FirstFault e ∧ t' = t ∧ w' = w := by
  -- each of the two determines the run, which then refutes the other
  rcases b.sound_or_fault with ⟨endpoints, hsound⟩ | ⟨fault, hfault⟩
  · obtain ⟨rule, w₁, hrun⟩ := run_build_of_sound around htransport hsound t w
    have hmethod := method?_of_clean (b := b) around hsound.clean (b.exchange around rule)
    refine ⟨⟨fun _ => ⟨endpoints, hsound⟩, fun _ => ⟨_, _, _, hrun⟩⟩, fun client t' w' hclient => ?_, fun e t' w' => ?_⟩
    · rw [hrun] at hclient
      cases hclient
      refine ⟨endpoints, hsound, rfl, ?_, fun key m hm => ?_, fun endpoint hendpoint => ?_⟩
      · rw [List.map_map]
        exact List.map_id _
      · obtain ⟨endpoint, hendpoint, hkey, rfl⟩ := (hmethod key m).1 hm
        exact ⟨hendpoint, hkey⟩
      · exact ⟨_, (hmethod _ _).2 ⟨endpoint, hendpoint, rfl, rfl⟩, rfl⟩
    · constructor
      · rw [hrun]
        nofun
      · rintro ⟨hfault, -, -⟩
        rw [run_build_of_fault around htransport hfault] at hrun
        cases hrun
  · have hrun := run_build_of_fault around htransport hfault t w
    refine ⟨⟨fun ⟨client, t', w', hclient⟩ => ?_, fun ⟨endpoints, hsound⟩ => ?_⟩, fun client t' w' hclient => ?_,
      fun e t' w' => ⟨fun he => ?_, fun ⟨he, ht, hw⟩ => ?_⟩⟩
    · rw [hrun] at hclient
      cases hclient
    · obtain ⟨rule, w₁, hbuilt⟩ := run_build_of_sound around htransport hsound t w
      rw [hrun] at hbuilt
      cases hbuilt
    · rw [hrun] at hclient
      cases hclient
    · rw [hrun] at he
      cases he
      exact ⟨hfault, rfl, rfl⟩
    · rw [ht, hw]
      exact run_build_of_fault around htransport he t w

/-! ## A sound builder and one with four faults -/

/-- A method without parameters. -/
def bareEndpoint (key : String) (returns : ReturnShape) : Endpoint :=
  ⟨key, "GET", .compile "/", [], [], [], none, none, none, returns⟩

/-- A method on the builder and one of a contract. -/
def orderly : Builder Nat where
  target := .url "https://host"
  config := .minimal
  methods := [bareEndpoint "Api#get()" .single]
  contracts := [.ok [], .ok [bareEndpoint "Api#list()" .stream]]
  transport := some fun _ => .done (.error (.timeout (.ofSeconds 1)))

/-- A key that comes again with a result that is not served, a service without a resolver, and a text that is no header
value. -/
def faulty : Builder Nat :=
  { orderly with
    target := .service "orders"
    config := { ClientConfig.minimal with userAgent := "a\nb" }
    contracts := [.ok [bareEndpoint "Api#get()" (.unsupported "Future")]] }

/-- The method of the contract is found, and of the four faults the result comes first. -/
theorem build_by_checks_faulty :
    let around : Surroundings Nat := ⟨0, fun _ => .ofNat 0, fun _ => .done (.error (.timeout (.ofSeconds 1)))⟩
    let w : World Nat := ⟨⟨[], 0⟩, .empty .default, []⟩
    orderly.transport.isSome = true ∧ faulty.transport.isSome = true ∧
    (∃ client t' w' m, (orderly.build around).run 0 w = (.ok client, t', w') ∧
      client.method? "Api#list()" = some m ∧ m.endpoint = bareEndpoint "Api#list()" .stream) ∧
    (faulty.build around).run 0 w = (.error (.unsupportedReturn "Api#get()" "Future"), 0, w) := by
  intro around w
  have hsound : orderly.Sound [bareEndpoint "Api#get()" .single, bareEndpoint "Api#list()" .stream] :=
    ⟨⟨[[], [_]], rfl, rfl⟩, ⟨by simp [Supported, bareEndpoint], by decide⟩, .inl ⟨_, rfl⟩,
      List.all_eq_true.1 (by decide +kernel)⟩
  have hdeclares : faulty.Declares
      ([bareEndpoint "Api#get()" .single] ++ bareEndpoint "Api#get()" (.unsupported "Future") :: []) :=
    ⟨[[_]], rfl, rfl⟩
  have hfirst : Clean [bareEndpoint "Api#get()" .single] := ⟨by simp [Supported, bareEndpoint], by decide⟩
  have hfault : faulty.FirstFault (.unsupportedReturn "Api#get()" "Future") := .shape hdeclares hfirst rfl
  obtain ⟨hsucceeds, hfinds, -⟩ := build_by_checks orderly around rfl 0 w
  obtain ⟨-, -, hfails⟩ := build_by_checks faulty around rfl 0 w
  refine ⟨rfl, rfl, ?_, (hfails _ _ _).2 ⟨hfault, rfl, rfl⟩⟩
  obtain ⟨client, t', w', hrun⟩ := hsucceeds.2 ⟨_, hsound⟩
  obtain ⟨endpoints, hsound', -, -, -, hall⟩ := hfinds client t' w' hrun
  obtain rfl := Except.ok.inj
    ((endpoints_of_declares hsound.declares).symm.trans (endpoints_of_declares hsound'.declares))
  obtain ⟨m, hm, hendpoint⟩ := hall (bareEndpoint "Api#list()" .stream) (by simp)
  exact ⟨client, t', w', m, hrun, hm, hendpoint⟩

end Builder

end ResilientClient
