/-
The courses of the calls of a client that is built. What its configuration says about retries and balancing
is all that decides which legs a call is made of (`madeOf_of_dispatch`).
-/
import ResilientClient.Proofs.Client.Build
import ResilientClient.Proofs.Pipeline.Retries
import ResilientClient.Proofs.Pipeline.Sending
import ResilientClient.Proofs.Pipeline.Stays

open ResilientClient.Fiber ResilientClient.Pipeline

namespace ResilientClient.Builder

variable {ε : Type}

/-- The courses of a call, if the retry policy is that of the configuration. -/
def course (b : Builder ε) (around : Surroundings ε) (call : Call) : Course :=
  let balanced := Balances (b.config.balancer.getD .noFailover) call
  match b.config.retry with
  | some c => Retries c around.draw b.allListeners call.method balanced
  | none => balanced

section Layers

variable {b : Builder ε} {around : Surroundings ε} {endpoints : List Endpoint}

theorem checkTarget_of_checked (h : b.checked = .ok endpoints) : b.checkTarget = .ok () := by
  unfold checked at h
  split at h
  · cases h
  · split at h
    · cases h
    · split at h
      · cases h
      · assumption

/-- A service as the target has a resolver. -/
theorem resolver_of_checked (h : b.checked = .ok endpoints) {service : String}
    (htarget : b.target = .service service) : ∃ resolver, b.resolver = some resolver := by
  have hcheck := checkTarget_of_checked h
  unfold checkTarget at hcheck
  cases hresolver : b.resolver with
  | some resolver => exact ⟨resolver, rfl⟩
  | none => simp [htarget, hresolver, Target.isLogical] at hcheck

theorem balanced_takes (h : b.checked = .ok endpoints) (inner : Service ε) {call : Call}
    (htarget : call.target = b.target) :
    Takes b.resolver inner (b.balanced inner call)
      (Balances (b.config.balancer.getD .noFailover) call) := by
  unfold balanced
  cases hb : b.target with
  | url base =>
    rw [if_neg (by simp [Target.isLogical])]
    intro t s ws r t' s' hends
    obtain ⟨legs, hjourney, rfl⟩ := takes_once b.resolver inner call t s ws r t' s' hends
    exact ⟨_, hjourney, .direct (htarget.trans hb)⟩
  | service service =>
    obtain ⟨resolver, hresolver⟩ := resolver_of_checked h hb
    rw [if_pos (by simp [Target.isLogical]), hresolver]
    exact balancing_takes _ resolver inner call

theorem retried_takes (hpolicy : b.retryPolicy = none) {inner : Service ε} {call : Call}
    {resolver : Option (Resolver ε)} {backing : Service ε}
    (h : Takes resolver backing (inner call) (Balances (b.config.balancer.getD .noFailover) call)) :
    Takes resolver backing (b.retried around inner call) (b.course around call) := by
  unfold retried course policy?
  rw [hpolicy]
  cases b.config.retry with
  | none => exact h
  | some c => exact retrying_takes c around.draw b.allListeners call inner h

end Layers

/-! ## What every course has -/

section Every

variable {b : Builder ε} {around : Surroundings ε} {call : Call} {legs : List Leg} {r : Outcome}

/-- On each course of a call, a final failure is the end. -/
theorem course_endsAt {c : RetryConfig} (hretry : b.config.retry = some c) (h : b.course around call legs r) :
    EndsAt c.Final legs r := by
  unfold course at h
  rw [hretry] at h
  exact Retries.endsAt
    (fun _ _ hbalanced => hbalanced.endsAt fun _ hfinal => hfinal.not_exchangeFault) h

/-- On each course of a call, the rejection by an open circuit is the end. -/
theorem course_endsAt_open (h : b.course around call legs r) : EndsAt (fun e => e.isCircuitOpen = true) legs r := by
  cases hretry : b.config.retry with
  | none =>
    unfold course at h
    rw [hretry] at h
    exact Balances.endsAt (fun e hopen hfault => by simp [hfault.not_circuitOpen] at hopen) h
  | some c => exact (course_endsAt hretry h).mono fun e hopen => .inr (.inl hopen)

/-- If every instance is found, each course has an attempt. -/
theorem course_attempts_pos (h : b.course around call legs r)
    (hfound : ∀ service o, .lookup service o ∈ legs → ∃ server, o = .ok server) : 0 < attempts legs := by
  unfold course at h
  cases hretry : b.config.retry with
  | none =>
    rw [hretry] at h
    exact Balances.attempts_pos h hfound
  | some c =>
    rw [hretry] at h
    obtain ⟨part, r', hround, hsub⟩ := Retries.exists_round h
    have hpos := hround.attempts_pos fun service o hmem => hfound service o (hsub hmem)
    obtain ⟨call', o, hmem⟩ := exists_attempt hpos
    exact attempts_pos_of_mem (hsub hmem)

/-- On each course of a call of a service, each attempt goes to an instance that is looked up. -/
theorem course_placed {service : String} (htarget : call.target = .service service)
    (h : b.course around call legs r) : Placed call service legs := by
  intro call' o hmem
  unfold course at h
  cases hretry : b.config.retry with
  | none =>
    rw [hretry] at h
    exact Balances.placed h htarget call' o hmem
  | some c =>
    rw [hretry] at h
    obtain ⟨part, r', hround, hsub, hpart⟩ := Retries.round_of_attempt h hmem
    obtain ⟨server, hlookup, hcall⟩ := hround.placed htarget call' o hpart
    exact ⟨server, hsub hlookup, hcall⟩

end Every

/-- The path of a call of a method is made of legs, on one of the courses of the call. -/
structure MadeOf (b : Builder ε) (around : Surroundings ε) (rule : HeaderRule) (m : Method ε)
    (args : List Argument) (legs : List Leg) (t : Instant) (s : World ε) (ws : List (Write (World ε)))
    (r : Outcome) (t' : Instant) (s' : World ε) : Prop where
  journey : Journey b.resolver (b.backing (b.exchange around rule) m.key) legs t s ws t' s'
  course : b.course around (.start m.endpoint args b.target) legs r

/-- Every call of a method of a client that is built is made of legs. -/
theorem madeOf_of_dispatch {b : Builder ε} {around : Surroundings ε} (hpolicy : b.retryPolicy = none)
    {client : Client ε} {t₀ t₁ : Instant} {s₀ s₁ : World ε} {ws₀ : List (Write (World ε))}
    (hbuild : Ends (b.build around) t₀ s₀ ws₀ (.ok client) t₁ s₁) :
    ∃ rule, HeaderRule.userAgent b.config.userAgent = .ok rule ∧ ∀ m ∈ client.methods, ∀ args t s ws r t' s',
      Ends (m.dispatch args) t s ws r t' s' → ∃ legs, b.MadeOf around rule m args legs t s ws r t' s' := by
  obtain ⟨endpoints, rule, hchecked, hrule, hmethods⟩ := methods_of_build hbuild
  refine ⟨rule, hrule, fun m hm args t s ws r t' s' hends => ?_⟩
  rw [hmethods] at hm
  obtain ⟨endpoint, -, rfl⟩ := List.mem_map.1 hm
  obtain ⟨legs, hjourney, hcourse⟩ :=
    retried_takes hpolicy (balanced_takes hchecked _ rfl) t s ws r t' s' hends
  exact ⟨legs, hjourney, hcourse⟩

theorem endpoint_of_build {b : Builder ε} {around : Surroundings ε} {endpoint : Endpoint}
    (hchecked : b.checked = .ok [endpoint]) {client : Client ε} {t t' : Instant} {s s' : World ε}
    {ws : List (Write (World ε))} (hbuild : Ends (b.build around) t s ws (.ok client) t' s') {m : Method ε}
    (hm : m ∈ client.methods) : m.endpoint = endpoint := by
  obtain ⟨endpoints, rule, hendpoints, -, hmethods⟩ := methods_of_build hbuild
  cases hchecked.symm.trans hendpoints
  rw [hmethods] at hm
  obtain ⟨endpoint, hmem, rfl⟩ := List.mem_map.1 hm
  exact List.mem_singleton.1 hmem

/-! ## Alone in a world -/

/-- Builds the client and executes its first method, with nobody else around: what that ends with, and when
and in which state. -/
def alone (b : Builder ε) (around : Surroundings ε) (w : World ε) : Option (Outcome × Instant × World ε) :=
  match (b.build around).run 0 w with
  | (.ok client, t, s) => client.methods.head?.map fun m => (m.execute []).run t s
  | (.error _, _, _) => none

/-- The first method of the client when it is built, and when and in which state that is. -/
def first (b : Builder ε) (around : Surroundings ε) (w : World ε) : Option (Method ε × Instant × World ε) :=
  match (b.build around).run 0 w with
  | (.ok client, t, s) => client.methods.head?.map fun m => (m, t, s)
  | (.error _, _, _) => none

theorem ends_of_first {b : Builder ε} {around : Surroundings ε} {w : World ε} {p : Method ε × Instant × World ε}
    (h : b.first around w = some p) :
    ∃ client ws₀, Ends (b.build around) 0 w ws₀ (.ok client) p.2.1 p.2.2 ∧ p.1 ∈ client.methods := by
  obtain ⟨ws₀, hbuild⟩ := ends_run (b.build around) 0 w
  unfold first at h
  generalize (b.build around).run 0 w = outcome at hbuild h
  rcases outcome with ⟨_ | client, t₁, s₁⟩
  · cases h
  · obtain ⟨m, hm, rfl⟩ := Option.map_eq_some_iff.1 h
    exact ⟨client, ws₀, hbuild, List.mem_of_mem_head? hm⟩

theorem alone_eq (b : Builder ε) (around : Surroundings ε) (w : World ε) :
    b.alone around w = (b.first around w).map fun p => (p.1.execute []).run p.2.1 p.2.2 := by
  unfold alone first
  split
  · rw [Option.map_map]
    rfl
  · rfl

theorem ends_of_alone {b : Builder ε} {around : Surroundings ε} {w : World ε} {stop : Outcome × Instant × World ε}
    (h : b.alone around w = some stop) :
    ∃ client ws₀ t₁ s₁ m ws, Ends (b.build around) 0 w ws₀ (.ok client) t₁ s₁ ∧ m ∈ client.methods ∧
      Ends (m.execute []) t₁ s₁ ws stop.1 stop.2.1 stop.2.2 := by
  rw [alone_eq] at h
  obtain ⟨⟨m, t₁, s₁⟩, hfirst, rfl⟩ := Option.map_eq_some_iff.1 h
  obtain ⟨client, ws₀, hbuild, hm⟩ := ends_of_first hfirst
  obtain ⟨ws, hends⟩ := ends_run (m.execute []) t₁ s₁
  exact ⟨client, ws₀, t₁, s₁, m, ws, hbuild, hm, hends⟩

/-! ## One answer -/

/-- The only instance of the service. -/
def soleServer : Server := ⟨"a", 80, false, []⟩

/-- The method of the client. -/
def getEndpoint : Endpoint := ⟨"Api#get()", "GET", .compile "/", [], [], [], none, none, none, .single⟩

/-- A client of a service with one instance, which gives the same answer to every request. A call is retried as
often as the number says, and in each round an instance may be tried once more, and so may another one. -/
def answering (answer : Response) (retries : Nat) : Builder Unit where
  target := .service "api"
  config := { ClientConfig.minimal with retry := some ⟨retries, .none, false⟩, balancer := some ⟨1, 1⟩ }
  methods := [getEndpoint]
  transport := some fun _ => .done (.ok answer)
  resolver := some fun _ => .done (.ok soleServer)

/-- Surroundings without a network. -/
def nowhere : Surroundings Unit :=
  ⟨0, fun _ => .ofNat 0, fun _ => .done (.error (.transport .connect "no network"))⟩

/-- A world without breakers in which nothing has happened. -/
def untouched : World Unit := ⟨⟨[], ()⟩, .empty .default, []⟩

section Answering

variable {answer : Response} {retries : Nat} {rule : HeaderRule} {m : Method Unit} {legs : List Leg}
  {t t' : Instant} {s s' : World Unit} {ws : List (Write (World Unit))} {r : Outcome} {call : Call} {o : Outcome}

theorem endpoint_of_answering {client : Client Unit}
    (hbuild : Ends ((answering answer retries).build nowhere) t s ws (.ok client) t' s')
    (hm : m ∈ client.methods) : m.endpoint = getEndpoint :=
  endpoint_of_build (by rfl) hbuild hm

/-- Every lookup finds the instance. -/
theorem lookup_of_answering
    (hmade : (answering answer retries).MadeOf nowhere rule m [] legs t s ws r t' s') {service : String}
    {found : Except Error Server} (hmem : .lookup service found ∈ legs) : found = .ok soleServer := by
  obtain ⟨t, s, ws, t', s', hlookup⟩ := hmade.journey.made_of_mem hmem
  obtain ⟨look, us, t₁, o₁, hlook, hresolve⟩ := hlookup.resolved
  cases hlook
  exact (ends_done.1 hresolve).2.1

/-- There are attempts, and all of them go to the instance. -/
theorem attempts_of_answering
    (hmade : (answering answer retries).MadeOf nowhere rule m [] legs t s ws r t' s') :
    (∃ call o, .attempt call o ∈ legs) ∧ ∀ call o, .attempt call o ∈ legs →
      call = (Call.start m.endpoint [] (.service "api")).toServer soleServer := by
  constructor
  · exact exists_attempt (course_attempts_pos hmade.course fun service found hmem =>
      ⟨soleServer, lookup_of_answering hmade hmem⟩)
  · intro call o hmem
    obtain ⟨server, hlookup, hcall⟩ := course_placed rfl hmade.course call o hmem
    cases lookup_of_answering hmade hlookup
    exact hcall

theorem prepare_sole (rule : HeaderRule) : ∃ request,
    prepare [rule.toInterceptor] ((Call.start getEndpoint [] (.service "api")).toServer soleServer) = .ok request := by
  have hexpands : (getEndpoint.expand [] soleServer.baseUrl).isOk = true := by decide +kernel
  cases hrequest : getEndpoint.expand [] soleServer.baseUrl with
  | error e => rw [hrequest] at hexpands; cases hexpands
  | ok request =>
    refine ⟨rule.apply request, ?_⟩
    simp only [prepare, baseUrl, Call.toServer, Call.start, hrequest]
    rfl

theorem sent_of_answering {request : Request}
    (h : Ends (send ((answering answer retries).exchange nowhere rule) request) t s ws o t' s') :
    o = .ok (answer.withRequest request) := by
  obtain ⟨t₁, o₁, us, result, t₂, o₂, htransport, rfl⟩ := answer_of_send h
  rw [(ends_done.1 htransport).2.1]
  rfl

/-- If the status of the answer is that of a failure and its body can be previewed at once, then each attempt
fails with them. -/
theorem outcome_of_answering {client : Client Unit} {t₀ t₁ : Instant} {s₀ s₁ : World Unit}
    {ws₀ : List (Write (World Unit))}
    (hbuild : Ends ((answering answer retries).build nowhere) t₀ s₀ ws₀ (.ok client) t₁ s₁)
    (hm : m ∈ client.methods) (hmade : (answering answer retries).MadeOf nowhere rule m [] legs t s ws r t' s')
    (hstatus : (answer.status.isClientError || answer.status.isServerError) = true) (preview : String)
    (hpreview : answer.body.preview previewLimit = (.done (.ok preview) : Fiber (Outside Unit) _))
    (hmem : .attempt call o ∈ legs) :
    (∃ request, prepare ((answering answer retries).exchange nowhere rule).interceptors call = .ok request) ∧
    o = .error (.status getEndpoint.key answer.status preview answer.contentType? (answer.retryHint? 0)) := by
  have hcall := (attempts_of_answering hmade).2 call o hmem
  rw [endpoint_of_answering hbuild hm] at hcall
  subst hcall
  obtain ⟨request, hrequest⟩ := prepare_sole rule
  refine ⟨⟨request, hrequest⟩, ?_⟩
  obtain ⟨t, s, ws, t', s', hends⟩ := hmade.journey.made_of_mem hmem
  -- without breakers nothing is between the outer layers and the attempt
  change Ends (executing ((answering answer retries).exchange nowhere rule) _) t s ws o t' s' at hends
  unfold executing at hends
  rw [show prepare ((answering answer retries).exchange nowhere rule).interceptors _ = _ from hrequest] at hends
  obtain ⟨_, sent, t₁, s₁, vs, -, hsend, hclassify⟩ := (ends_andThen _ _).1 hends
  cases sent_of_answering hsend
  have hkept : ¬ (((answering answer retries).exchange nowhere rule).decode404 = true ∧
      (answer.withRequest request).status = .notFound) := fun h => absurd h.1 Bool.false_ne_true
  have hhandled : ((answering answer retries).exchange nowhere rule).statusHandler.handles
      (answer.withRequest request).status = true := hstatus
  dsimp only at hclassify
  unfold classify at hclassify
  rw [if_neg hkept, if_pos hhandled] at hclassify
  obtain ⟨_, e, _, _, _, -, hdecode, hend⟩ := (ends_andThen _ _).1 hclassify
  obtain ⟨_, text, _, _, _, -, hread, hdecoded⟩ := (ends_andThen _ _).1 (ends_outside hdecode).1
  obtain ⟨-, rfl, -, -⟩ := ends_done.1 hend
  rw [show (answer.withRequest request).body.preview (min previewLimit previewLimit) = _ from hpreview] at hread
  cases (ends_done.1 hread).2.1
  rw [(ends_done.1 hdecoded).2.1]
  rfl

end Answering

end ResilientClient.Builder
