/-
Header rules. What a chain of rules leaves of a list of headers is known name by name: the last rule that overwrites a
name decides it, else the name keeps its values, and a name that is new has the value of the first rule that brings
it. The rule for the user agent comes last, so every request that is sent has one (`headers_by_rules`).
-/
import ResilientClient.Proofs.Client.SameRequest
import ResilientClient.Proofs.Expansion.HeaderGroups

namespace ResilientClient

/-! ## Lists of headers -/

namespace Grouping

variable {κ α : Type} [DecidableEq κ] (change : List α → List α) (key : κ)

/-- A change keeps the keys where they stand; a new key stands last. -/
theorem keys_update (groups : List (κ × List α)) : (update (· == ·) change key groups).map Prod.fst =
    groups.map Prod.fst ++ if key ∈ groups.map Prod.fst then [] else [key] := by
  induction groups with
  | nil => simp [update]
  | cons group groups ih =>
    rw [update]
    by_cases hsame : group.1 = key
    · simp [hsame]
    · rw [if_neg (by simpa using hsame), List.map_cons, ih, List.map_cons, List.cons_append]
      simp only [List.mem_cons, Ne.symm hsame, false_or]

end Grouping

namespace Http.Headers

variable {headers : Headers} {name : HeaderName}

/-- The names, in order. -/
def names (headers : Headers) : List HeaderName := headers.fields.map Prod.fst

theorem contains_iff : headers.contains name = true ↔ name ∈ headers.names := by
  simp [contains, names]

theorem valuesOf_of_new (h : name ∉ headers.names) : headers.valuesOf name = [] := by
  have hnone : headers.fields.find? (fun field => field.1 == name) = none := by
    rw [List.find?_eq_none]
    intro field hfield hsame
    exact h (List.mem_map.2 ⟨field, hfield, by simpa using hsame⟩)
  rw [valuesOf, hnone]
  rfl

/-- A change to the values of a name leaves the other names alone. -/
theorem valuesOf_update (change : List HeaderValue → List HeaderValue) (headers : Headers) (name other : HeaderName) :
    valuesOf ⟨Grouping.update (· == ·) change name headers.fields⟩ other =
      if other = name then change (headers.valuesOf name) else headers.valuesOf other := by
  obtain ⟨fields⟩ := headers
  unfold valuesOf
  induction fields with
  | nil =>
    by_cases hsame : other = name
    · simp [Grouping.update, hsame]
    · simp [Grouping.update, hsame, Ne.symm hsame]
  | cons field fields ih =>
    simp only [Grouping.update] at ih ⊢
    by_cases hfield : field.1 = name
    · by_cases hsame : other = name
      · simp [hfield, hsame]
      · simp [hfield, hsame, Ne.symm hsame]
    · by_cases hother : field.1 = other
      · simp [hother, show other ≠ name from hother ▸ hfield]
      · simpa [hfield, hother, List.find?_cons] using ih

theorem names_append (headers : Headers) (name : HeaderName) (value : HeaderValue) :
    (headers.append name value).names = headers.names ++ if name ∈ headers.names then [] else [name] :=
  Grouping.keys_update _ _ _

theorem names_set (headers : Headers) (name : HeaderName) (value : HeaderValue) :
    (headers.set name value).names = headers.names ++ if name ∈ headers.names then [] else [name] :=
  Grouping.keys_update _ _ _

theorem valuesOf_append (headers : Headers) (name other : HeaderName) (value : HeaderValue) :
    (headers.append name value).valuesOf other =
      if other = name then headers.valuesOf name ++ [value] else headers.valuesOf other :=
  valuesOf_update _ _ _ _

theorem valuesOf_set (headers : Headers) (name other : HeaderName) (value : HeaderValue) :
    (headers.set name value).valuesOf other = if other = name then [value] else headers.valuesOf other :=
  valuesOf_update _ _ _ _

/-- Every name stands once, with at least one value. -/
structure Tidy (headers : Headers) : Prop where
  nodup : headers.names.Nodup
  valued : ∀ name ∈ headers.names, headers.valuesOf name ≠ []

theorem Tidy.mem_names_iff (h : headers.Tidy) : name ∈ headers.names ↔ headers.valuesOf name ≠ [] :=
  ⟨h.valued name, fun hvalues => by_contra fun hnew => hvalues (valuesOf_of_new hnew)⟩

theorem tidy_empty : empty.Tidy := ⟨List.nodup_nil, nofun⟩

theorem Tidy.update {change : List HeaderValue → List HeaderValue} (h : headers.Tidy)
    (hchange : ∀ values, change values ≠ []) (name : HeaderName) :
    Tidy ⟨Grouping.update (· == ·) change name headers.fields⟩ := by
  have hnames := Grouping.keys_update change name headers.fields
  refine ⟨?_, fun other hother => ?_⟩
  · rw [names, hnames]
    split
    · rw [List.append_nil]
      exact h.nodup
    · rename_i hnew
      rw [← List.concat_eq_append]
      exact h.nodup.concat hnew
  · rw [valuesOf_update]
    by_cases hsame : other = name
    · rw [if_pos hsame]
      exact hchange _
    · rw [if_neg hsame]
      rw [names, hnames, List.mem_append] at hother
      rcases hother with hother | hother
      · exact h.valued other hother
      · split at hother
        · cases hother
        · exact absurd (List.mem_singleton.1 hother) hsame

theorem Tidy.append (h : headers.Tidy) (name : HeaderName) (value : HeaderValue) : (headers.append name value).Tidy :=
  h.update (fun _ => by simp) name

theorem Tidy.set (h : headers.Tidy) (name : HeaderName) (value : HeaderValue) : (headers.set name value).Tidy :=
  h.update (fun _ => List.cons_ne_nil _ _) name

/-- The ways to change a list. -/
inductive Edit
  | append (name : HeaderName) (value : HeaderValue)
  | set (name : HeaderName) (value : HeaderValue)

/-- The list after a change. -/
def edit (headers : Headers) : Edit → Headers
  | .append name value => headers.append name value
  | .set name value => headers.set name value

/-- The list that is made by these changes. -/
def made (edits : List Edit) : Headers := edits.foldl edit empty

theorem tidy_made (edits : List Edit) : (made edits).Tidy := by
  unfold made
  induction edits using List.reverseRecOn with
  | nil => exact tidy_empty
  | append_singleton edits e ih =>
    rw [List.foldl_append]
    cases e with
    | append name value => exact ih.append name value
    | set name value => exact ih.set name value

theorem ofPairs_eq_made (pairs : List (HeaderName × HeaderValue)) :
    ofPairs pairs = made (pairs.map fun pair => .append pair.1 pair.2) := by
  unfold ofPairs made
  rw [List.foldl_map]
  rfl

end Http.Headers

open Http (Headers HeaderName HeaderValue)

/-- The headers that a method is expanded to are made value by value. -/
theorem Endpoint.made_of_expand {e : Endpoint} {args : List Argument} {base : String} {request : Request}
    (h : e.expand args base = .ok request) : ∃ edits, request.headers = Headers.made edits := by
  unfold expand at h
  split at h
  · cases h
  · split at h
    · cases h
    · cases h
      exact ⟨_, (withFormType_ofPairs _ _).trans (Headers.ofPairs_eq_made _)⟩

/-! ## Chains of rules -/

namespace HeaderRule

/-- The value of the last rule that overwrites a name. -/
def lastOverwrite? (rules : List HeaderRule) (name : HeaderName) : Option HeaderValue :=
  (rules.reverse.find? fun rule => rule.overwrite && rule.name == name).map HeaderRule.value

/-- The value of the first rule that brings a name if it is absent. -/
def firstIfAbsent? (rules : List HeaderRule) (name : HeaderName) : Option HeaderValue :=
  (rules.find? fun rule => !rule.overwrite && rule.name == name).map HeaderRule.value

/-- The values that a name has after a chain of rules. -/
def valuesUnder (rules : List HeaderRule) (headers : Headers) (name : HeaderName) : List HeaderValue :=
  match lastOverwrite? rules name with
  | some value => [value]
  | none => if name ∈ headers.names then headers.valuesOf name else (firstIfAbsent? rules name).toList

/-- What a chain of rules makes of a list of headers: the names stay where they are, the new ones follow in the order
in which the chain comes to them. -/
structure Settled (rules : List HeaderRule) (headers after : Headers) : Prop where
  names : after.names = headers.names ++ ((rules.map HeaderRule.name).filter (· ∉ headers.names)).eraseDups
  values : ∀ name, after.valuesOf name = valuesUnder rules headers name
  tidy : after.Tidy

variable {rules : List HeaderRule} {headers after : Headers} {rule : HeaderRule} {name : HeaderName}

theorem lastOverwrite?_concat : lastOverwrite? (rules ++ [rule]) name =
    if rule.overwrite && rule.name == name then some rule.value else lastOverwrite? rules name := by
  rw [lastOverwrite?, List.reverse_concat, List.find?_cons]
  cases rule.overwrite && rule.name == name <;> rfl

theorem firstIfAbsent?_concat : firstIfAbsent? (rules ++ [rule]) name =
    (firstIfAbsent? rules name).or (if !rule.overwrite && rule.name == name then some rule.value else none) := by
  rw [firstIfAbsent?, List.find?_append, Option.map_or, List.find?_singleton]
  cases !rule.overwrite && rule.name == name <;> rfl

theorem names_headersUnder (headers : Headers) (rule : HeaderRule) : (headersUnder headers rule).names =
    headers.names ++ if rule.name ∈ headers.names then [] else [rule.name] := by
  unfold headersUnder
  split
  · exact Headers.names_set _ _ _
  · split
    · rename_i hcontains
      rw [if_pos (Headers.contains_iff.1 hcontains), List.append_nil]
    · exact Headers.names_append _ _ _

theorem tidy_headersUnder (h : headers.Tidy) (rule : HeaderRule) : (headersUnder headers rule).Tidy := by
  unfold headersUnder
  split
  · exact h.set _ _
  · split
    · exact h
    · exact h.append _ _

theorem valuesOf_headersUnder (headers : Headers) (rule : HeaderRule) (name : HeaderName) :
    (headersUnder headers rule).valuesOf name =
      if rule.name = name ∧ (rule.overwrite = true ∨ name ∉ headers.names) then [rule.value]
      else headers.valuesOf name := by
  by_cases hname : rule.name = name
  · subst hname
    unfold headersUnder
    cases rule.overwrite with
    | true => simp [Headers.valuesOf_set]
    | false =>
      by_cases hmem : rule.name ∈ headers.names
      · simp [Headers.contains_iff, hmem]
      · simp [Headers.contains_iff, hmem, Headers.valuesOf_append, Headers.valuesOf_of_new hmem]
  · unfold headersUnder
    split
    · simp [Headers.valuesOf_set, hname, Ne.symm hname]
    · split
      · simp [hname]
      · simp [Headers.valuesOf_append, hname, Ne.symm hname]

theorem settled_nil (h : headers.Tidy) : Settled [] headers headers where
  names := by simp
  values name := by
    change _ = if name ∈ headers.names then headers.valuesOf name else []
    split
    · rfl
    · exact Headers.valuesOf_of_new ‹_›
  tidy := h

theorem Settled.mem_names_iff (h : Settled rules headers after) :
    name ∈ after.names ↔ name ∈ headers.names ∨ name ∈ rules.map HeaderRule.name := by
  rw [h.names, List.mem_append, List.mem_eraseDups, List.mem_filter]
  by_cases hmem : name ∈ headers.names <;> simp [hmem]

/-- One more rule counts where it overwrites or nothing is there yet. -/
theorem valuesUnder_concat (htidy : headers.Tidy) (rules : List HeaderRule) (rule : HeaderRule) (name : HeaderName) :
    valuesUnder (rules ++ [rule]) headers name =
      if rule.name = name ∧ (rule.overwrite = true ∨ valuesUnder rules headers name = []) then [rule.value]
      else valuesUnder rules headers name := by
  unfold valuesUnder
  rw [lastOverwrite?_concat, firstIfAbsent?_concat]
  by_cases hname : rule.name = name
  · cases hoverwrite : rule.overwrite with
    | true => simp [hname]
    | false =>
      cases lastOverwrite? rules name with
      | some value => simp
      | none =>
        by_cases hmem : name ∈ headers.names
        · simp [hmem, htidy.valued name hmem]
        · cases firstIfAbsent? rules name <;> simp [hname, hmem]
  · simp [hname]

/-- One more rule at the end of a chain. -/
theorem Settled.concat (htidy : headers.Tidy) (h : Settled rules headers after) (rule : HeaderRule) :
    Settled (rules ++ [rule]) headers (headersUnder after rule) where
  names := by
    rw [names_headersUnder, List.map_append, List.map_singleton, List.filter_append, h.names]
    by_cases hmem : rule.name ∈ headers.names
    · simp [hmem]
    · -- a new name: it is among the names that the chain has brought, or follows them
      have hlast : [rule.name].filter (· ∉ headers.names) = [rule.name] := by simp [hmem]
      rw [hlast, Grouping.eraseDups_concat, ← List.append_assoc]
      simp [hmem]
  values name := by
    -- a tidy list shows by the values of a name whether it has the name
    have hnew : name ∉ after.names ↔ valuesUnder rules headers name = [] := by
      rw [h.tidy.mem_names_iff, h.values, not_not]
    rw [valuesOf_headersUnder, valuesUnder_concat htidy, h.values]
    simp only [hnew]
  tidy := tidy_headersUnder h.tidy rule

theorem settled_of_rules (htidy : headers.Tidy) (rules : List HeaderRule) :
    Settled rules headers (rules.foldl headersUnder headers) := by
  induction rules using List.reverseRecOn with
  | nil => exact settled_nil htidy
  | append_singleton rules rule ih =>
    rw [List.foldl_append]
    exact ih.concat htidy rule

/-! ## The user agent behind them -/

/-- The rule for a user agent. -/
def agentRule (agent : HeaderValue) : HeaderRule := ⟨.userAgent, agent, false⟩

theorem eq_of_userAgent {text : String} (h : userAgent text = .ok rule) : rule = agentRule ⟨Bytes.ofText text⟩ := by
  rw [userAgent_eq] at h
  split at h <;> cases h
  rfl

theorem agentRule_apply (agent : HeaderValue) (request : Request) : (agentRule agent).apply request =
    if request.headers.contains .userAgent then request else request.withHeader .userAgent agent :=
  if_neg Bool.false_ne_true

/-- The user agent is given by the method or by the chain. -/
def Supplied (rules : List HeaderRule) (headers : Headers) : Prop :=
  .userAgent ∈ headers.names ∨ .userAgent ∈ rules.map HeaderRule.name

/-- What is sent for a request that a method is expanded to: it has the headers of the chain, and behind them the
user agent of the client exactly if none is given. -/
structure Signed (rules : List HeaderRule) (agent : HeaderValue) (expanded dressed request : Request) : Prop where
  intercepted : expanded.intercept (rules.map toInterceptor) = .ok dressed
  settled : Settled rules expanded.headers dressed.headers
  supplied : Supplied rules expanded.headers → request = dressed
  own : ¬Supplied rules expanded.headers ↔ request = dressed.withHeader .userAgent agent
  sole : ¬Supplied rules expanded.headers → request.headers.valuesOf .userAgent = [agent]
  carried : request.headers.valuesOf .userAgent ≠ []
  wired : request.wireHeaders.valuesOf .userAgent = request.headers.valuesOf .userAgent

theorem valuesOf_wireHeaders (request : Request) :
    request.wireHeaders.valuesOf .userAgent = request.headers.valuesOf .userAgent := by
  have hname : HeaderName.userAgent ≠ .contentLength := by decide
  unfold Request.wireHeaders
  split
  · split
    · rw [Headers.valuesOf_append, if_neg hname]
    · rfl
  · rfl

/-- A value more is a change. -/
theorem ne_withHeader (request : Request) (name : HeaderName) (value : HeaderValue) :
    request ≠ request.withHeader name value := by
  intro hsame
  have hvalues := congrArg (fun r : Request => r.headers.valuesOf name) hsame
  simp [Request.withHeader, Headers.valuesOf_append] at hvalues

/-- A chain with the rule for the user agent at its end. -/
theorem signed_of_intercept {agent : HeaderValue} {expanded request : Request} (htidy : expanded.headers.Tidy)
    (h : expanded.intercept ((rules ++ [agentRule agent]).map toInterceptor) = .ok request) :
    ∃ dressed, Signed rules agent expanded dressed request := by
  obtain ⟨dressed, hdressed⟩ : ∃ dressed,
      dressed = { expanded with headers := rules.foldl headersUnder expanded.headers } := ⟨_, rfl⟩
  have hintercepted : expanded.intercept (rules.map toInterceptor) = .ok dressed := by
    rw [hdressed, intercept_rules]
  have hsettled : Settled rules expanded.headers dressed.headers := by
    rw [hdressed]
    exact settled_of_rules htidy rules
  have hrequest : request =
      if dressed.headers.contains .userAgent then dressed else dressed.withHeader .userAgent agent := by
    rw [intercept_rules, List.foldl_append] at h
    rw [← agentRule_apply, apply_eq, hdressed]
    exact (Except.ok.inj h).symm
  have hmem : .userAgent ∈ dressed.headers.names ↔ Supplied rules expanded.headers := hsettled.mem_names_iff
  refine ⟨dressed, ?_⟩
  by_cases hgiven : Supplied rules expanded.headers
  · rw [if_pos (Headers.contains_iff.2 (hmem.2 hgiven))] at hrequest
    subst hrequest
    exact {
      intercepted := hintercepted
      settled := hsettled
      supplied := fun _ => rfl
      own := ⟨absurd hgiven, fun hown => absurd hown (ne_withHeader _ _ _)⟩
      sole := absurd hgiven
      carried := hsettled.tidy.valued _ (hmem.2 hgiven)
      wired := valuesOf_wireHeaders _ }
  · rw [if_neg (mt Headers.contains_iff.1 (mt hmem.1 hgiven))] at hrequest
    subst hrequest
    have hvalues : (dressed.withHeader .userAgent agent).headers.valuesOf .userAgent = [agent] := by
      rw [Request.withHeader, Headers.valuesOf_append, if_pos rfl, Headers.valuesOf_of_new (mt hmem.1 hgiven),
        List.nil_append]
    exact {
      intercepted := hintercepted
      settled := hsettled
      supplied := fun hgiven' => absurd hgiven' hgiven
      own := ⟨fun _ => rfl, fun _ => hgiven⟩
      sole := fun _ => hvalues
      carried := hvalues ▸ List.cons_ne_nil _ _
      wired := valuesOf_wireHeaders _ }

end HeaderRule

/-! ## Requests of a client -/

open ResilientClient.Fiber ResilientClient.Pipeline

namespace Builder

variable {ε : Type} {b : Builder ε} {around : Surroundings ε} {t t' : Instant} {s s' : World ε}

/-- Each request of a dispatch is prepared from the endpoint of the method and the arguments of the call. -/
theorem Dispatched.prepared {rule : HeaderRule} {m : Method ε} {args : List Argument} {laps : List (Lap ε)}
    (h : b.Dispatched around rule m args laps t s t' s') {request : Request}
    (hsent : request ∈ sentIn (laps.flatMap Lap.writes)) :
    ∃ call, call.endpoint = m.endpoint ∧ call.args = args ∧
      prepare (b.exchange around rule).interceptors call = .ok request := by
  rw [sentIn_flatMap] at hsent
  obtain ⟨lap, hlap, hsent⟩ := List.mem_flatMap.1 hsent
  obtain ⟨call, o, s₁, s₂, hleg, hends⟩ := h.trip.attempt_of_sent hlap hsent
  have hprepare := prepared_of_backing hends hsent
  obtain ⟨before, after, rfl⟩ := List.append_of_mem hlap
  have hlegs : (before ++ lap :: after).map Lap.leg = before.map Lap.leg ++ .attempt call o :: after.map Lap.leg := by
    rw [List.map_append, List.map_cons, hleg]
  cases htarget : b.target with
  | url base =>
    obtain rfl := eq_of_repeats htarget h.repeated call o (by rw [hlegs]; exact List.mem_append_cons_self)
    exact ⟨_, rfl, rfl, hprepare⟩
  | service service =>
    obtain ⟨server, front, back, -, -, rfl⟩ := seated_of_repeats htarget h.repeated _ call o _ hlegs
    exact ⟨_, rfl, rfl, hprepare⟩

/-- Each request of an invocation, however far it has come, is prepared from the endpoint of the method and the
arguments of the call. -/
theorem prepared_of_sent {client : Client ε} {t₀ t₁ : Instant} {s₀ s₁ : World ε} {ws₀ : List (Write (World ε))}
    (hbuild : Ends (b.build around) t₀ s₀ ws₀ (.ok client) t₁ s₁) : ∃ rule,
    HeaderRule.userAgent b.config.userAgent = .ok rule ∧ ∀ m ∈ client.methods, ∀ args (α : Type) (x : Stage ε α) failed,
      m.Invokes args x failed → ∀ t s ws y t' s', Goes x t s ws y t' s' → ∀ request ∈ sentIn ws,
        ∃ call, call.endpoint = m.endpoint ∧ call.args = args ∧
          prepare (b.exchange around rule).interceptors call = .ok request := by
  obtain ⟨rule, hrule, hmethods⟩ := dispatched_of_ends hbuild
  refine ⟨rule, hrule, fun m hm args α x failed hinvokes t s ws y t' s' hgoes request hmem => ?_⟩
  -- the path is continued to its end, where the laps are known
  obtain ⟨more, hends⟩ := ends_run y t' s'
  obtain ⟨us, r, t₂, s₂, vs, hwrites, hdispatch, hmute, -⟩ := hinvokes.dispatched (hgoes.trans hends)
  obtain ⟨laps, rfl, hdispatched⟩ := hmethods m hm args _ _ _ _ _ _ hdispatch
  refine hdispatched.prepared ?_
  have hsent := congrArg sentIn hwrites
  rw [sentIn_append, sentIn_append, hmute, List.append_nil] at hsent
  rw [← hsent]
  exact List.mem_append_left _ hmem

end Builder

/-- A chain of rules settles the headers of any request, name by name. If the interceptors of a client are rules, then
each request that is sent has a user agent, and that of the client exactly if neither the method nor a rule
gives one. -/
theorem headers_by_rules (rules : List HeaderRule) :
    (∀ (edits : List Headers.Edit) (request : Request), request.headers = Headers.made edits → ∃ headers,
      request.intercept (rules.map HeaderRule.toInterceptor) = .ok { request with headers } ∧
      HeaderRule.Settled rules request.headers headers) ∧
    ∀ (ε : Type) (b : Builder ε) (around : Surroundings ε), b.interceptors = rules.map HeaderRule.toInterceptor →
      ∀ t₀ s₀ ws₀ client t₁ s₁, Ends (b.build around) t₀ s₀ ws₀ (.ok client) t₁ s₁ →
        ∀ m ∈ client.methods, ∀ args (α : Type) (x : Stage ε α) failed, m.Invokes args x failed →
          ∀ t s ws y t' s', Goes x t s ws y t' s' → ∀ request ∈ sentIn ws, ∃ base expanded dressed,
            m.endpoint.expand args base = .ok expanded ∧
            HeaderRule.Signed rules ⟨Bytes.ofText b.config.userAgent⟩ expanded dressed request := by
  refine ⟨fun edits request hmade => ?_, ?_⟩
  · refine ⟨_, HeaderRule.intercept_rules rules request, HeaderRule.settled_of_rules ?_ rules⟩
    exact hmade ▸ Headers.tidy_made edits
  · intro ε b around hrules t₀ s₀ ws₀ client t₁ s₁ hbuild m hm args α x failed hinvokes t s ws y t' s' hgoes
      request hmem
    obtain ⟨rule, hrule, hprepared⟩ := Builder.prepared_of_sent hbuild
    obtain ⟨call, hendpoint, hargs, hprepare⟩ :=
      hprepared m hm args α x failed hinvokes t s ws y t' s' hgoes request hmem
    obtain rfl := HeaderRule.eq_of_userAgent hrule
    unfold prepare at hprepare
    split at hprepare
    · cases hprepare
    · rename_i base hbase
      rw [hendpoint, hargs] at hprepare
      split at hprepare
      · cases hprepare
      · rename_i expanded hexpand
        obtain ⟨edits, hmade⟩ := Endpoint.made_of_expand hexpand
        have htidy : expanded.headers.Tidy := hmade ▸ Headers.tidy_made edits
        have hchain : (b.exchange around (HeaderRule.agentRule ⟨Bytes.ofText b.config.userAgent⟩)).interceptors =
            (rules ++ [HeaderRule.agentRule ⟨Bytes.ofText b.config.userAgent⟩]).map HeaderRule.toInterceptor := by
          simp [Builder.exchange, hrules]
        rw [hchain] at hprepare
        obtain ⟨dressed, hsigned⟩ := HeaderRule.signed_of_intercept htidy hprepare
        exact ⟨base, expanded, dressed, hexpand, hsigned⟩

/-! ## A client with a user agent of its own and one with that of a rule -/

namespace Builder

/-- The client of `refused`, with a rule that gives a user agent. -/
def polite : Builder Nat := { refused with interceptors := [HeaderRule.agentRule ⟨[112]⟩].map HeaderRule.toInterceptor }

/-- A request of a rehearsal. -/
theorem sent_of_rehearse {ε : Type} {b : Builder ε} {around : Surroundings ε} {w : World ε}
    {values : List HeaderValue} {others : List (List HeaderValue)}
    (h : (b.rehearse around w).map (fun p => p.2.map fun request => request.headers.valuesOf .userAgent) =
      some (values :: others)) :
    ∃ client ws₀ t₁ s₁ m ws o t' s' request, Ends (b.build around) 0 w ws₀ (.ok client) t₁ s₁ ∧ m ∈ client.methods ∧
      Ends (m.execute []) t₁ s₁ ws o t' s' ∧ request ∈ sentIn ws ∧ request.headers.valuesOf .userAgent = values := by
  obtain ⟨⟨o, requests⟩, hrehearse, hvalues⟩ := Option.map_eq_some_iff.1 h
  obtain ⟨client, ws₀, t₁, s₁, m, ws, t', s', hbuild, hm, hends, rfl⟩ := ends_of_rehearse hrehearse
  obtain ⟨request, rest, hsent, hrequest, -⟩ := List.map_eq_cons_iff.1 hvalues
  refine ⟨client, ws₀, t₁, s₁, m, ws, o, t', s', request, hbuild, hm, hends, ?_, hrequest⟩
  rw [show sentIn ws = request :: rest from hsent]
  exact List.mem_cons_self

end Builder

/-- Of the rules for one name the last that overwrites decides, and a new name comes last. Of two clients that differ in
their rules, one sends its own user agent and the other one that of its rule. -/
theorem headers_by_rules_polite :
    let around : Surroundings Nat := ⟨0, fun _ => .ofNat 0, fun _ => .done (.error (.timeout (.ofSeconds 1)))⟩
    let w : World Nat := ⟨⟨[], 0⟩, .empty .default, []⟩
    let rules : List HeaderRule :=
      [⟨⟨"c"⟩, ⟨[4]⟩, false⟩, ⟨⟨"b"⟩, ⟨[5]⟩, true⟩, ⟨⟨"a"⟩, ⟨[6]⟩, false⟩, ⟨⟨"b"⟩, ⟨[7]⟩, true⟩]
    let request : Request := ⟨"Api#get()", "GET", ⟨none, none, "/", none⟩,
      .made [.append ⟨"a"⟩ ⟨[1]⟩, .append ⟨"b"⟩ ⟨[2]⟩, .append ⟨"a"⟩ ⟨[3]⟩], .empty⟩
    (∃ headers, request.intercept (rules.map HeaderRule.toInterceptor) = .ok { request with headers } ∧
      headers.names = [⟨"a"⟩, ⟨"b"⟩, ⟨"c"⟩] ∧ headers.valuesOf ⟨"a"⟩ = [⟨[1]⟩, ⟨[3]⟩] ∧
      headers.valuesOf ⟨"b"⟩ = [⟨[7]⟩] ∧ headers.valuesOf ⟨"c"⟩ = [⟨[4]⟩]) ∧
    (∃ client ws₀ t₁ s₁ m ws o t' s' request base expanded dressed,
      Ends (Builder.refused.build around) 0 w ws₀ (.ok client) t₁ s₁ ∧ m ∈ client.methods ∧
      Ends (m.execute []) t₁ s₁ ws o t' s' ∧ request ∈ sentIn ws ∧ m.endpoint.expand [] base = .ok expanded ∧
      HeaderRule.Signed [Builder.tenantRule] ⟨Bytes.ofText defaultUserAgent⟩ expanded dressed request ∧
      request.headers.valuesOf .userAgent = [⟨Bytes.ofText defaultUserAgent⟩]) ∧
    (∃ client ws₀ t₁ s₁ m ws o t' s' request base expanded dressed,
      Ends (Builder.polite.build around) 0 w ws₀ (.ok client) t₁ s₁ ∧ m ∈ client.methods ∧
      Ends (m.execute []) t₁ s₁ ws o t' s' ∧ request ∈ sentIn ws ∧ m.endpoint.expand [] base = .ok expanded ∧
      HeaderRule.Signed [HeaderRule.agentRule ⟨[112]⟩] ⟨Bytes.ofText defaultUserAgent⟩ expanded dressed request ∧
      request.headers.valuesOf .userAgent = [⟨[112]⟩]) := by
  intro around w rules request
  refine ⟨?_, ?_, ?_⟩
  · obtain ⟨headers, hintercept, hsettled⟩ := (headers_by_rules rules).1 _ request rfl
    refine ⟨headers, hintercept, ?_, ?_, ?_, ?_⟩
    · rw [hsettled.names]
      decide
    all_goals
      rw [hsettled.values]
      decide
  · have hrun : (Builder.refused.rehearse around w).map
        (fun p => p.2.map fun request => request.headers.valuesOf .userAgent) =
          some [[⟨Bytes.ofText defaultUserAgent⟩], [⟨Bytes.ofText defaultUserAgent⟩]] := by decide +kernel
    obtain ⟨client, ws₀, t₁, s₁, m, ws, o, t', s', request, hbuild, hm, hends, hsent, hvalues⟩ :=
      Builder.sent_of_rehearse hrun
    obtain ⟨base, expanded, dressed, hexpand, hsigned⟩ := (headers_by_rules [Builder.tenantRule]).2 _ Builder.refused
      around rfl _ _ _ _ _ _ hbuild m hm [] _ _ _ .execute _ _ _ _ _ _ hends request hsent
    exact ⟨client, ws₀, t₁, s₁, m, ws, o, t', s', request, base, expanded, dressed, hbuild, hm, hends, hsent, hexpand,
      hsigned, hvalues⟩
  · have hrun : (Builder.polite.rehearse around w).map
        (fun p => p.2.map fun request => request.headers.valuesOf .userAgent) =
          some [[⟨[112]⟩], [⟨[112]⟩]] := by decide +kernel
    obtain ⟨client, ws₀, t₁, s₁, m, ws, o, t', s', request, hbuild, hm, hends, hsent, hvalues⟩ :=
      Builder.sent_of_rehearse hrun
    obtain ⟨base, expanded, dressed, hexpand, hsigned⟩ := (headers_by_rules [HeaderRule.agentRule ⟨[112]⟩]).2 _
      Builder.polite around rfl _ _ _ _ _ _ hbuild m hm [] _ _ _ .execute _ _ _ _ _ _ hends request hsent
    exact ⟨client, ws₀, t₁, s₁, m, ws, o, t', s', request, base, expanded, dressed, hbuild, hm, hends, hsent, hexpand,
      hsigned, hvalues⟩

end ResilientClient
