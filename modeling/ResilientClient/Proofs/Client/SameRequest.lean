/-
The requests of one invocation. Each attempt expands the method anew, so two of them can differ in the base URL
only: if the interceptors are header rules, then verb, path, query, headers and body of all requests of an
invocation are the same, and the scheme and the authority are those of the instance that was looked up last
(`same_request`).
-/
import ResilientClient.Proofs.Client.Courses
import ResilientClient.Proofs.Client.Invocation
import ResilientClient.Proofs.Expansion.Address
import ResilientClient.Proofs.Pipeline.Timetable

open ResilientClient.Fiber ResilientClient.Pipeline

namespace ResilientClient

variable {ε : Type}

/-! ## Header rules -/

namespace HeaderRule

/-- The headers under a rule. -/
def headersUnder (headers : Http.Headers) (rule : HeaderRule) : Http.Headers :=
  if rule.overwrite then headers.set rule.name rule.value
  else if headers.contains rule.name then headers
  else headers.append rule.name rule.value

theorem apply_eq (rule : HeaderRule) (request : Request) :
    rule.apply request = { request with headers := headersUnder request.headers rule } := by
  unfold apply headersUnder
  split
  · rfl
  · split <;> rfl

/-- A chain of rules changes the headers only. -/
theorem intercept_rules (rules : List HeaderRule) : ∀ request : Request,
    request.intercept (rules.map toInterceptor) =
      .ok { request with headers := rules.foldl headersUnder request.headers } := by
  unfold Request.intercept
  induction rules with
  | nil => exact fun _ => rfl
  | cons rule rules ih =>
    intro request
    rw [List.map_cons, List.foldlM_cons, List.foldl_cons]
    have hrest := ih (rule.apply request)
    rw [apply_eq] at hrest
    rw [← hrest, ← apply_eq]
    rfl

end HeaderRule

/-! ## Requests of attempts -/

namespace Pipeline

/-- The request that a call is expanded to, once its URL is read. -/
def dressed (rules : List HeaderRule) (e : Endpoint) (args : List Argument) (uri : Http.Uri)
    (fields : List (Http.HeaderName × Http.HeaderValue)) : Request :=
  let body := e.requestBody args
  ⟨e.key, e.verb, uri, rules.foldl HeaderRule.headersUnder (Endpoint.withFormType (Http.Headers.ofPairs fields) body),
    body⟩

variable {rules : List HeaderRule} {call call' : Call} {request other : Request}

theorem prepare_rules (h : prepare (rules.map HeaderRule.toInterceptor) call = .ok request) :
    ∃ base uri fields, baseUrl call = .ok base ∧
      Endpoint.parseUrl (call.endpoint.urlText call.args base) = .ok uri ∧
      call.endpoint.headerFields call.args = .ok fields ∧
      request = dressed rules call.endpoint call.args uri fields := by
  unfold prepare at h
  split at h
  · cases h
  · rename_i base hbase
    split at h
    · cases h
    · rename_i expanded hexpand
      rw [HeaderRule.intercept_rules] at h
      unfold Endpoint.expand at hexpand
      split at hexpand
      · cases hexpand
      · rename_i uri huri
        split at hexpand
        · cases hexpand
        · rename_i fields hfields
          cases hexpand
          cases h
          exact ⟨base, uri, fields, hbase, huri, hfields, rfl⟩

/-- Two requests that can differ in where they go only. -/
structure SameMessage (request other : Request) : Prop where
  method : request.method = other.method
  verb : request.verb = other.verb
  headers : request.headers = other.headers
  body : request.body = other.body

theorem sameMessage_of_prepare (h : prepare (rules.map HeaderRule.toInterceptor) call = .ok request)
    (h' : prepare (rules.map HeaderRule.toInterceptor) call' = .ok other)
    (hendpoint : call.endpoint = call'.endpoint) (hargs : call.args = call'.args) : SameMessage request other := by
  obtain ⟨base, uri, fields, -, -, hfields, rfl⟩ := prepare_rules h
  obtain ⟨base', uri', fields', -, -, hfields', rfl⟩ := prepare_rules h'
  rw [hendpoint, hargs] at hfields
  cases hfields.symm.trans hfields'
  rw [hendpoint, hargs]
  exact ⟨rfl, rfl, rfl, rfl⟩

/-- The request of an attempt at an instance goes there, and its path and its query are those of the method. -/
theorem uri_of_prepare {server : Server} (hplain : server.Plain)
    (h : prepare (rules.map HeaderRule.toInterceptor) (call.toServer server) = .ok request) :
    request.uri.scheme = some server.scheme ∧ request.uri.authority = some server.authority ∧
      Http.Uri.pathAndQuery (call.endpoint.tail call.args).toList =
        .ok (request.uri.rawPath, request.uri.query) := by
  obtain ⟨base, uri, fields, hbase, huri, -, rfl⟩ := prepare_rules h
  cases hbase
  exact Endpoint.uri_of_server hplain huri

/-- Attempts at instances have the same path and the same query. -/
theorem samePath_of_prepare {server server' : Server} (hplain : server.Plain) (hplain' : server'.Plain)
    (h : prepare (rules.map HeaderRule.toInterceptor) (call.toServer server) = .ok request)
    (h' : prepare (rules.map HeaderRule.toInterceptor) (call.toServer server') = .ok other) :
    request.uri.path = other.uri.path ∧ request.uri.query = other.uri.query := by
  obtain ⟨hscheme, -, hparts⟩ := uri_of_prepare hplain h
  obtain ⟨hscheme', -, hparts'⟩ := uri_of_prepare hplain' h'
  obtain ⟨hpath, hquery⟩ := Prod.mk.inj (Except.ok.inj (hparts.symm.trans hparts'))
  refine ⟨?_, hquery⟩
  unfold Http.Uri.path
  rw [hpath, hscheme, hscheme']
  rfl

end Pipeline

/-! ## Bodies that can be sent again -/

namespace RequestBody

/-- Opened again, the body has the same content. -/
def Replayable (body : RequestBody) : Prop := ∀ number items, body ≠ .oneShot number items

theorem Replayable.opens {body : RequestBody} (h : body.Replayable) :
    ∃ items, ∀ method opened, body.open? method opened = (.ok items, opened) := by
  cases body with
  | oneShot number items => exact absurd rfl (h number items)
  | empty | bytes | form | stream => exact ⟨_, fun _ _ => rfl⟩

end RequestBody

/-! ## Attempts of a client -/

namespace Builder

variable {b : Builder ε} {around : Surroundings ε} {exchange : Exchange ε} {t t' : Instant} {s s' : World ε}
  {ws : List (Write (World ε))} {r : Outcome}

/-- Behind the outer layers, a request that is sent is that of the attempt. -/
theorem prepared_of_backing {method : String} {call : Call} {o : Outcome}
    (h : Ends (b.backing exchange method call) t s ws o t' s') {request : Request} (hsent : request ∈ sentIn ws) :
    prepare exchange.interceptors call = .ok request := by
  have hsends : sentIn ws = [] ∨ sentIn ws = (prepare exchange.interceptors call).toOption.toList := by
    unfold backing at h
    cases hregistry : b.registry? with
    | some registry =>
      rw [hregistry] at h
      exact sentIn_guarding_eq h
    | none =>
      rw [hregistry] at h
      exact .inr (sentIn_executing h)
  rcases hsends with hnone | hone
  · rw [hnone] at hsent
    cases hsent
  · rw [hone] at hsent
    cases hrequest : prepare exchange.interceptors call with
    | error e =>
      rw [hrequest] at hsent
      cases hsent
    | ok sent =>
      rw [hrequest] at hsent
      obtain rfl : request = sent := List.mem_singleton.1 hsent
      rfl

/-- A call of a client goes on courses of its balancer, again and again if there is a retry policy. -/
theorem retried_repeats {resolver : Option (Resolver ε)} {backing inner : Service ε} {call : Call} {inside : Course}
    (h : Takes resolver backing (inner call) inside) :
    Takes resolver backing (b.retried around inner call) fun legs _ => Repeats inside legs := by
  unfold retried
  cases b.policy? around with
  | some policy => exact attemptsFrom_repeats policy _ _ h _ _
  | none =>
    intro t s ws r t' s' hends
    obtain ⟨legs, hjourney, hinside⟩ := h t s ws r t' s' hends
    exact ⟨legs, hjourney, .once hinside⟩

/-- On a service each attempt goes to the instance that was looked up last. -/
theorem seated_of_repeats {config : BalancerConfig} {call : Call} {service : String}
    (htarget : call.target = .service service) {legs : List Leg} (h : Repeats (Balances config call) legs) :
    Seated call service legs := by
  induction h with
  | nil => exact seated_of_no_attempt (by simp)
  | round hinside _ ih => exact (hinside.seated htarget).append ih
  | @between leg more hleg _ ih =>
    have hone : Seated call service [leg] := by
      refine seated_of_no_attempt fun call' o hmem => ?_
      obtain rfl := List.mem_singleton.1 hmem
      cases hleg
    exact hone.append ih

/-- On a URL each attempt is the call itself. -/
theorem eq_of_repeats {config : BalancerConfig} {call : Call} {base : String} (htarget : call.target = .url base)
    {legs : List Leg} (h : Repeats (Balances config call) legs) :
    ∀ call' o, .attempt call' o ∈ legs → call' = call := by
  induction h with
  | nil => exact fun _ _ hmem => absurd hmem List.not_mem_nil
  | round hinside _ ih =>
    intro call' o hmem
    rcases List.mem_append.1 hmem with hmem | hmem
    · cases hinside with
      | direct =>
        cases List.mem_singleton.1 hmem
        rfl
      | stayed hservice => cases htarget.symm.trans hservice
      | full hservice => cases htarget.symm.trans hservice
    · exact ih call' o hmem
  | between hleg _ ih =>
    intro call' o hmem
    rcases List.mem_cons.1 hmem with rfl | hmem
    · cases hleg
    · exact ih call' o hmem

/-- The dispatch of a call of a client, lap by lap. -/
structure Dispatched (b : Builder ε) (around : Surroundings ε) (rule : HeaderRule) (m : Method ε)
    (args : List Argument) (laps : List (Lap ε)) (t : Instant) (s : World ε) (t' : Instant) (s' : World ε) :
    Prop where
  trip : Trip b.resolver (b.backing (b.exchange around rule) m.key) laps t s t' s'
  repeated : Repeats (Balances (b.config.balancer.getD .noFailover) (.start m.endpoint args b.target))
    (laps.map Lap.leg)

/-- Under any retry policy, every call of a method of a client that is built is made of laps. -/
theorem dispatched_of_ends {client : Client ε} {t₀ t₁ : Instant} {s₀ s₁ : World ε} {ws₀ : List (Write (World ε))}
    (hbuild : Ends (b.build around) t₀ s₀ ws₀ (.ok client) t₁ s₁) :
    ∃ rule, HeaderRule.userAgent b.config.userAgent = .ok rule ∧ ∀ m ∈ client.methods, ∀ args t s ws r t' s',
      Ends (m.dispatch args) t s ws r t' s' → ∃ laps : List (Lap ε), laps.flatMap Lap.writes = ws ∧
        b.Dispatched around rule m args laps t s t' s' := by
  obtain ⟨endpoints, rule, hchecked, hrule, hmethods⟩ := methods_of_build hbuild
  refine ⟨rule, hrule, fun m hm args t s ws r t' s' hends => ?_⟩
  rw [hmethods] at hm
  obtain ⟨endpoint, -, rfl⟩ := List.mem_map.1 hm
  obtain ⟨legs, hjourney, hrepeats⟩ :=
    retried_repeats (balanced_takes hchecked _ rfl) t s ws r t' s' hends
  obtain ⟨laps, rfl, hwrites, htrip⟩ := hjourney.trip
  exact ⟨laps, hwrites, htrip, hrepeats⟩

/-- No instance that the client can be given has a host that ends an authority. -/
def PlainHosts (b : Builder ε) : Prop :=
  ∀ look service, b.resolver = some look → b.target = .service service →
    ∀ t o ws server t' o', Ends (look service) t o ws (.ok server) t' o' → server.Plain

/-- Where an attempt goes: to the URL of the client, or to the instance that was looked up last. -/
inductive Destined (b : Builder ε) (m : Method ε) (args : List Argument) (before : List Leg) (call : Call) : Prop
  | url {base : String} : b.target = .url base → call = .start m.endpoint args b.target →
      Destined b m args before call
  | server {service : String} {server : Server} {front back : List Leg} : b.target = .service service →
      before = front ++ .lookup service (.ok server) :: back →
      (∀ service' found, .lookup service' found ∉ back) → server.Plain →
      call = (Call.start m.endpoint args b.target).toServer server → Destined b m args before call

theorem plain_of_lookup (hplain : b.PlainHosts) {backing : Service ε} {laps : List (Lap ε)}
    (h : Trip b.resolver backing laps t s t' s') {service : String} (htarget : b.target = .service service)
    {server : Server} (hmem : .lookup service (.ok server) ∈ laps.map Lap.leg) : server.Plain := by
  obtain ⟨lap, hlap, hleg⟩ := List.mem_map.1 hmem
  obtain ⟨s, s', hmade⟩ := h.made_of_mem hlap
  rw [hleg] at hmade
  obtain ⟨look, us, t₁, o₁, hlook, hresolve⟩ := hmade.resolved
  exact hplain look service hlook htarget _ _ _ _ _ _ hresolve

/-- Each request of a dispatch is that of an attempt. -/
theorem Dispatched.destined {rule : HeaderRule} {m : Method ε} {args : List Argument} {laps : List (Lap ε)}
    (h : b.Dispatched around rule m args laps t s t' s') (hplain : b.PlainHosts) {before after : List (Lap ε)}
    {lap : Lap ε} (hlaps : laps = before ++ lap :: after) {request : Request} (hsent : request ∈ sentIn lap.writes) :
    ∃ call o, lap.leg = .attempt call o ∧ b.Destined m args (before.map Lap.leg) call ∧
      prepare (b.exchange around rule).interceptors call = .ok request := by
  obtain ⟨call, o, s, s', hleg, hends⟩ := h.trip.attempt_of_sent (hlaps ▸ List.mem_append_cons_self) hsent
  refine ⟨call, o, hleg, ?_, prepared_of_backing hends hsent⟩
  have hlegs : laps.map Lap.leg = before.map Lap.leg ++ .attempt call o :: after.map Lap.leg := by
    rw [hlaps, List.map_append, List.map_cons, hleg]
  cases htarget : b.target with
  | url base =>
    refine .url htarget ?_
    exact eq_of_repeats htarget h.repeated call o (by rw [hlegs]; exact List.mem_append_cons_self)
  | service service =>
    obtain ⟨server, front, back, hbefore, hback, hcall⟩ :=
      seated_of_repeats htarget h.repeated _ call o _ hlegs
    refine .server htarget hbefore hback (plain_of_lookup hplain h.trip htarget ?_) hcall
    rw [hlegs, hbefore]
    simp

/-- Wherever they go, the requests of two attempts of one invocation are the same message; on a URL they are the
same altogether. -/
theorem Destined.agree {rules : List HeaderRule} {m : Method ε} {args : List Argument} {before before' : List Leg}
    {call call' : Call} (h : b.Destined m args before call) (h' : b.Destined m args before' call')
    {request other : Request} (hrequest : prepare (rules.map HeaderRule.toInterceptor) call = .ok request)
    (hother : prepare (rules.map HeaderRule.toInterceptor) call' = .ok other) :
    SameMessage request other ∧ (request.uri.path = other.uri.path ∧ request.uri.query = other.uri.query) ∧
      (b.target.isLogical = false → request = other) := by
  cases h with
  | url htarget hcall =>
    cases h' with
    | url _ hcall' =>
      rw [hcall'.trans hcall.symm] at hother
      cases hrequest.symm.trans hother
      exact ⟨⟨rfl, rfl, rfl, rfl⟩, ⟨rfl, rfl⟩, fun _ => rfl⟩
    | server hservice => cases htarget.symm.trans hservice
  | server hservice _ _ hhost hcall =>
    cases h' with
    | url htarget => cases htarget.symm.trans hservice
    | server _ _ _ hhost' hcall' =>
      subst hcall hcall'
      refine ⟨sameMessage_of_prepare hrequest hother rfl rfl, samePath_of_prepare hhost hhost' hrequest hother, ?_⟩
      intro hurl
      rw [hservice] at hurl
      cases hurl

theorem Destined.body_eq {rules : List HeaderRule} {m : Method ε} {args : List Argument} {before : List Leg}
    {call : Call} (h : b.Destined m args before call) {request : Request}
    (hrequest : prepare (rules.map HeaderRule.toInterceptor) call = .ok request) :
    request.body = m.endpoint.requestBody args := by
  obtain ⟨base, uri, fields, -, -, -, rfl⟩ := prepare_rules hrequest
  cases h with
  | url _ hcall | server _ _ _ _ hcall =>
    subst hcall
    rfl

end Builder

/-- If the interceptors of a client are header rules and the hosts of its instances are plain, then the
requests of an invocation whose body can be sent again are the same up to their addresses, however far it has
come: they have the same verb, path, query and headers, and opened at any time their bodies have the same
content. On a URL they are the same altogether; on a service each of them goes to the instance that was looked up
last before its attempt. -/
theorem same_request (b : Builder ε) (around : Surroundings ε) (rules : List HeaderRule)
    (hrules : b.interceptors = rules.map HeaderRule.toInterceptor) (hplain : b.PlainHosts)
    {client : Client ε} {t₀ t₁ : Instant} {s₀ s₁ : World ε} {ws₀ : List (Write (World ε))}
    (hbuild : Ends (b.build around) t₀ s₀ ws₀ (.ok client) t₁ s₁) :
    ∃ rule, HeaderRule.userAgent b.config.userAgent = .ok rule ∧
      ∀ m ∈ client.methods, ∀ args, (m.endpoint.requestBody args).Replayable →
        ∀ (α : Type) (x : Stage ε α) (failed : Error → α), m.Invokes args x failed →
          (∀ t s ws y t' s', Goes x t s ws y t' s' → ∀ request ∈ sentIn ws, ∀ other ∈ sentIn ws,
            request.verb = other.verb ∧ request.uri.path = other.uri.path ∧
            request.uri.query = other.uri.query ∧ request.headers = other.headers ∧
            (∃ items, ∀ opened, request.body.open? request.method opened = (.ok items, opened) ∧
              other.body.open? other.method opened = (.ok items, opened)) ∧
            (b.target.isLogical = false → request = other)) ∧
          (∀ t s ws a t' s', Ends x t s ws a t' s' → ∃ laps us vs t₂ s₂, ws = us ++ vs ∧ sentIn vs = [] ∧
            laps.flatMap Lap.writes = us ∧ b.Dispatched around rule m args laps t s t₂ s₂ ∧
            ∀ before lap after, laps = before ++ lap :: after → ∀ request ∈ sentIn lap.writes,
              ∃ call o, lap.leg = .attempt call o ∧ ∀ service, b.target = .service service →
                ∃ server front back, before.map Lap.leg = front ++ .lookup service (.ok server) :: back ∧
                  (∀ service' found, .lookup service' found ∉ back) ∧ call.server = some server ∧
                  request.uri.scheme = some server.scheme ∧ request.uri.authority = some server.authority) := by
  obtain ⟨rule, hrule, hmethods⟩ := Builder.dispatched_of_ends hbuild
  have hinterceptors : (b.exchange around rule).interceptors = (rules ++ [rule]).map HeaderRule.toInterceptor := by
    simp [Builder.exchange, hrules]
  refine ⟨rule, hrule, fun m hm args hbody α x failed hinvokes => ⟨?_, ?_⟩⟩
  · intro t s ws y t' s' hgoes request hrequest other hother
    obtain ⟨more, hends⟩ := ends_run y t' s'
    obtain ⟨us, r, t₂, s₂, vs, hwrites, hdispatch, hmute, -⟩ := hinvokes.dispatched (hgoes.trans hends)
    obtain ⟨laps, rfl, hdispatched⟩ := hmethods m hm args _ _ _ _ _ _ hdispatch
    have hall : ∀ request ∈ sentIn ws, ∃ before call, b.Destined m args before call ∧
        prepare ((rules ++ [rule]).map HeaderRule.toInterceptor) call = .ok request := by
      intro request hmem
      have hmem : request ∈ sentIn (laps.flatMap Lap.writes) := by
        have hsent := congrArg sentIn hwrites
        rw [sentIn_append, sentIn_append, hmute, List.append_nil] at hsent
        rw [← hsent]
        exact List.mem_append_left _ hmem
      rw [sentIn_flatMap] at hmem
      obtain ⟨lap, hlap, hmem⟩ := List.mem_flatMap.1 hmem
      obtain ⟨before, after, hlaps⟩ := List.append_of_mem hlap
      obtain ⟨call, o, -, hdestined, hprepare⟩ := hdispatched.destined hplain hlaps hmem
      exact ⟨_, call, hdestined, hinterceptors ▸ hprepare⟩
    obtain ⟨before, call, hdestined, hprepare⟩ := hall request hrequest
    obtain ⟨before', call', hdestined', hprepare'⟩ := hall other hother
    obtain ⟨hsame, ⟨hpath, hquery⟩, hequal⟩ := hdestined.agree hdestined' hprepare hprepare'
    refine ⟨hsame.verb, hpath, hquery, hsame.headers, ?_, hequal⟩
    obtain ⟨items, hopens⟩ := hbody.opens
    rw [← hsame.body, hdestined.body_eq hprepare]
    exact ⟨items, fun opened => ⟨hopens _ opened, hopens _ opened⟩⟩
  · intro t s ws a t' s' hends
    obtain ⟨us, r, t₂, s₂, vs, rfl, hdispatch, hmute, -⟩ := hinvokes.dispatched hends
    obtain ⟨laps, hwrites, hdispatched⟩ := hmethods m hm args t s us r t₂ s₂ hdispatch
    refine ⟨laps, us, vs, t₂, s₂, rfl, hmute, hwrites, hdispatched, ?_⟩
    intro before lap after hlaps request hrequest
    obtain ⟨call, o, hleg, hdestined, hprepare⟩ := hdispatched.destined hplain hlaps hrequest
    refine ⟨call, o, hleg, fun service htarget => ?_⟩
    cases hdestined with
    | url hurl => cases htarget.symm.trans hurl
    | @server _ server front back hservice hbefore hback hhost hcall =>
      cases htarget.symm.trans hservice
      subst hcall
      rw [hinterceptors] at hprepare
      obtain ⟨hscheme, hauthority, -⟩ := uri_of_prepare hhost hprepare
      exact ⟨server, front, back, hbefore, hback, rfl, hscheme, hauthority⟩

/-! ## Two instances that cannot be reached -/

namespace Builder

/-- Builds the client and executes its first method, with nobody else around: what that ends with, and the
requests that are sent. -/
def rehearse (b : Builder ε) (around : Surroundings ε) (w : World ε) : Option (Outcome × List Request) :=
  match (b.build around).run 0 w with
  | (.ok client, t, s) =>
    client.methods.head?.map fun m => (((m.execute []).run t s).1, sentIn ((m.execute []).trail t s))
  | (.error _, _, _) => none

theorem ends_of_rehearse {b : Builder ε} {around : Surroundings ε} {w : World ε} {o : Outcome}
    {requests : List Request} (h : b.rehearse around w = some (o, requests)) :
    ∃ client ws₀ t₁ s₁ m ws t' s', Ends (b.build around) 0 w ws₀ (.ok client) t₁ s₁ ∧ m ∈ client.methods ∧
      Ends (m.execute []) t₁ s₁ ws o t' s' ∧ sentIn ws = requests := by
  obtain ⟨ws₀, hbuild⟩ := ends_run (b.build around) 0 w
  unfold rehearse at h
  generalize (b.build around).run 0 w = outcome at hbuild h
  rcases outcome with ⟨_ | client, t₁, s₁⟩
  · cases h
  · obtain ⟨m, hm, hstop⟩ := Option.map_eq_some_iff.1 h
    obtain ⟨rfl, rfl⟩ := Prod.mk.inj hstop
    exact ⟨client, ws₀, t₁, s₁, m, _, _, _, hbuild, List.mem_of_mem_head? hm, ends_trail _ _ _, rfl⟩

/-- An instance behind TLS. -/
def secureServer : Server := ⟨"b", 443, true, []⟩

/-- The rule of the client. -/
def tenantRule : HeaderRule := ⟨⟨"x-tenant"⟩, ⟨[116]⟩, true⟩

/-- A client of a service with two instances that take turns and cannot be reached; after the first of them the
other one is tried. -/
def refused : Builder Nat where
  target := .service "api"
  config := { ClientConfig.minimal with balancer := some ⟨0, 1⟩ }
  methods := [getEndpoint]
  transport := some fun _ => .done (.error (.transport .connect "refused"))
  interceptors := [tenantRule.toInterceptor]
  resolver := some fun _ =>
    .modifyGet fun _ o => (.ok (if o.own % 2 = 0 then soleServer else secureServer), { o with own := o.own + 1 })

theorem plainHosts_refused : refused.PlainHosts := by
  intro look service hlook _ t o ws server t' o' hends
  cases hlook
  obtain ⟨-, hserver, -, -⟩ := ends_modifyGet.1 hends
  cases hserver
  unfold Server.Plain
  split <;> decide

end Builder

/-- The two requests go to two instances, by different schemes, and are the same otherwise. -/
theorem same_request_refused :
    let b := Builder.refused
    let around : Surroundings Nat := ⟨0, fun _ => .ofNat 0, fun _ => .done (.error (.timeout (.ofSeconds 1)))⟩
    let w : World Nat := ⟨⟨[], 0⟩, .empty .default, []⟩
    ∃ client ws₀ t₁ s₁ m ws t' s' request other, Ends (b.build around) 0 w ws₀ (.ok client) t₁ s₁ ∧
      m ∈ client.methods ∧
      Ends (m.execute []) t₁ s₁ ws (.error (.outOfRetries 2 (.transport .connect "refused"))) t' s' ∧
      sentIn ws = [request, other] ∧ request.uri.text = "http://a:80/" ∧ other.uri.text = "https://b:443/" ∧
      b.interceptors = [Builder.tenantRule].map HeaderRule.toInterceptor ∧ b.PlainHosts ∧
      (m.endpoint.requestBody []).Replayable ∧ request.verb = other.verb ∧ request.uri.path = other.uri.path ∧
      request.uri.query = other.uri.query ∧ request.headers = other.headers := by
  intro b around w
  have hrun : (b.rehearse around w).map (fun p => (p.1, p.2.map fun request => request.uri.text)) =
      some ((.error (.outOfRetries 2 (.transport .connect "refused")) : Outcome),
        ["http://a:80/", "https://b:443/"]) := by decide +kernel
  obtain ⟨⟨o, requests⟩, hrehearse, hstop⟩ := Option.map_eq_some_iff.1 hrun
  obtain ⟨ho, htexts⟩ := Prod.mk.inj hstop
  obtain rfl : o = .error (.outOfRetries 2 (.transport .connect "refused")) := ho
  obtain ⟨client, ws₀, t₁, s₁, m, ws, t', s', hbuild, hm, hends, hsent⟩ := Builder.ends_of_rehearse hrehearse
  obtain ⟨request, rest, rfl, hrequest, hrest⟩ := List.map_eq_cons_iff.1 htexts
  obtain ⟨other, rest, rfl, hother, hnone⟩ := List.map_eq_cons_iff.1 hrest
  obtain rfl : rest = [] := List.map_eq_nil_iff.1 hnone
  obtain ⟨rule, -, hall⟩ := same_request b around [Builder.tenantRule] rfl Builder.plainHosts_refused hbuild
  have hbody : (m.endpoint.requestBody []).Replayable := by
    intro number items
    unfold Endpoint.requestBody
    split
    · rename_i argument hargument
      cases hindex : m.endpoint.bodyIndex <;> simp [hindex] at hargument
    · nofun
  obtain ⟨hverb, hpath, hquery, hheaders, -⟩ := (hall m hm [] hbody _ _ _ .execute).1 _ _ _ _ _ _ hends
    request (by rw [hsent]; exact List.mem_cons_self) other (by rw [hsent]; simp)
  exact ⟨client, ws₀, t₁, s₁, m, ws, t', s', request, other, hbuild, hm, hends, hsent, hrequest, hother, rfl,
    Builder.plainHosts_refused, hbody, hverb, hpath, hquery, hheaders⟩

end ResilientClient
