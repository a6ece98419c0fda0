/-
Clients with and without `decode404`. Driven by one program they do the same in every order of turns as long as no
answer has status 404, and with the flag such an answer is at once what its invocation ends with
(`decode404_only_404`).
-/
import ResilientClient.Proofs.Client.Courses
import ResilientClient.Proofs.Client.Invocation
import ResilientClient.Proofs.Pipeline.Missing

open ResilientClient.Fiber ResilientClient.Pipeline

namespace ResilientClient

variable {ε α β : Type}

namespace Method

/-! ## One invocation of two methods -/

/-- The same invocation of two methods: for the response, a single element, a JSON value, the declared shape (but
for a stream, which is not started yet), a stream, or the JSON values in its lines. -/
inductive InvokesAlike (m m' : Method ε) (args : List Argument) : {α : Type} → Stage ε α → Stage ε α → Prop
  | execute : InvokesAlike m m' args (m.execute args) (m'.execute args)
  | single : InvokesAlike m m' args (m.invokeSingle args) (m'.invokeSingle args)
  | json {β : Type} (decoder : Json.Decoder β) :
      InvokesAlike m m' args (m.invokeJson decoder args) (m'.invokeJson decoder args)
  | declared : m.endpoint.returns ≠ .stream → InvokesAlike m m' args (m.invoke args) (m'.invoke args)
  | stream (limit : Option Nat) : InvokesAlike m m' args (m.invokeStream args limit) (m'.invokeStream args limit)
  | ndjson {β : Type} (decoder : Json.Decoder β) (limit : Option Nat) :
      InvokesAlike m m' args (m.invokeNdjson decoder args limit) (m'.invokeNdjson decoder args limit)

section Alike

variable {m m' : Method ε} {args : List Argument} {x y : Stage ε α} {rest rest' : Instant → Outcome → Stage ε α}

theorem deliver_service (m : Method ε) (service : Service ε) (started : Instant) (limit : Option Nat)
    (body : BodyStream) : Method.deliver { m with service } started limit body = m.deliver started limit body := by
  fun_induction m.deliver started limit body with
  | case1 => rw [deliver]
  | case2 limit hlimit => rw [deliver]; exact hlimit
  | case3 limit d rest hlimit ih => rw [deliver, ih]; exact hlimit
  | case4 limit bytes rest hlimit ih => rw [deliver, ih]; rfl; exact hlimit
  | case5 limit e rest hlimit => rw [deliver]; rfl; exact hlimit

theorem deliverLines_service (m : Method ε) (service : Service ε) (decoder : Json.Decoder β) (started : Instant)
    (line : Bytes) (limit : Option Nat) (body : BodyStream) :
    Method.deliverLines { m with service } decoder started line limit body =
      m.deliverLines decoder started line limit body := by
  fun_induction m.deliverLines decoder started line limit body with
  | case1 => rw [deliverLines]
  | case2 line limit hlimit => rw [deliverLines]; exact hlimit
  | case3 line limit d rest hlimit ih => rw [deliverLines, ih]; exact hlimit
  | case4 line limit bytes rest hlimit ih =>
    rw [deliverLines]
    · simp only [ih]
      rfl
    · exact hlimit
  | case5 line limit e rest hlimit => rw [deliverLines]; rfl; exact hlimit

/-- What two methods make of an outcome is the same, so they agree as long as their pipelines do. -/
theorem agree_of_hands (hx : Hands m args x rest) (hy : Hands m' args y rest')
    (hrest : ∀ started r, rest started r = rest' started r)
    (hdispatch : ∀ s, AgreeUntil Misses (fun _ => True) (m.dispatch args) (m'.dispatch args) s) (s : World ε) :
    AgreeUntil Misses (fun _ => True) x y s := by
  rw [hx.1, hy.1]
  refine agreeUntil_andThen fun started s => (hdispatch s).andThen fun r s _ => ?_
  rw [hrest]
  exact agreeUntil_refl _ _

theorem InvokesAlike.agree {service : Service ε} (h : m.InvokesAlike { m with service } args x y)
    (hservice : AgreeUntilMissing m.service service) (s : World ε) :
    AgreeUntil Misses (fun _ => True) x y s := by
  have hdispatch : ∀ s, AgreeUntil Misses (fun _ => True) (m.dispatch args)
      (Method.dispatch { m with service } args) s := fun s => hservice _ s
  have hclosing : ∀ {β : Type} started (r : Except Error β),
      m.closingOf started r = Method.closingOf { m with service } started r := by
    intro β started r
    cases r <;> rfl
  have hsingle : ∀ s, AgreeUntil Misses (fun _ => True) (m.invokeSingle args)
      (Method.invokeSingle { m with service } args) s := by
    refine agree_of_hands (hands_invokeSingle m args) (hands_invokeSingle _ args) (fun started r => ?_) hdispatch
    rw [funext (hclosing started)]
    cases r <;> rfl
  cases h with
  | execute => exact agree_of_hands (hands_execute m args) (hands_execute _ args) hclosing hdispatch s
  | single => exact hsingle s
  | json decoder => exact (hsingle s).andThen fun result s _ => agreeUntil_refl _ _
  | declared hreturns =>
    unfold invoke
    dsimp only
    split
    · rename_i hstream
      exact absurd hstream hreturns
    · exact (hsingle s).andThen fun outcome s _ => agreeUntil_refl _ _
  | stream limit =>
    by_cases hlimit : limit = some 0
    · subst hlimit
      exact .done trivial
    · exact agree_of_hands (hands_invokeStream hlimit args) (hands_invokeStream hlimit args)
        (fun started r => (deliver_service m service started limit _).symm) hdispatch s
  | ndjson decoder limit =>
    by_cases hlimit : limit = some 0
    · subst hlimit
      exact .done trivial
    · exact agree_of_hands (hands_invokeNdjson hlimit decoder args) (hands_invokeNdjson hlimit decoder args)
        (fun started r => (deliverLines_service m service decoder started [] limit _).symm) hdispatch s

end Alike

/-! ## Invocations that find nothing -/

/-- The ways to invoke a method, each with what it gives for a response without a body: no element, no item. -/
inductive Empties (m : Method ε) (args : List Argument) : {α : Type} → Stage ε α → α → Prop
  | execute : Empties m args (m.execute args) nothingFound
  | single : Empties m args (m.invokeSingle args) (.ok none)
  | json {β : Type} (decoder : Json.Decoder β) : Empties m args (m.invokeJson decoder args) (.ok none)
  | declared : m.endpoint.returns ≠ .stream → Empties m args (m.invoke args) (.ok (.single none))
  | stream {limit : Option Nat} : limit ≠ some 0 → Empties m args (m.invokeStream args limit) ([], true)
  | ndjson {β : Type} (decoder : Json.Decoder β) {limit : Option Nat} : limit ≠ some 0 →
      Empties m args (m.invokeNdjson decoder args limit) []

section Empty

variable {m : Method ε} {args : List Argument} {x : Stage ε α} {a : α}

theorem Empties.hands (h : m.Empties args x a) : ∃ rest, Hands m args x rest ∧
    ∀ started, rest started nothingFound = .done a := by
  cases h with
  | execute => exact ⟨_, hands_execute m args, fun started => rfl⟩
  | single => exact ⟨_, hands_invokeSingle m args, fun started => rfl⟩
  | json decoder => exact ⟨_, hands_invokeJson m decoder args, fun started => rfl⟩
  | declared hreturns => exact ⟨_, hands_invoke hreturns args, fun started => rfl⟩
  | @stream limit hlimit =>
    refine ⟨_, hands_invokeStream hlimit args, fun started => ?_⟩
    rcases limit with _ | _ | n
    · rfl
    · exact absurd rfl hlimit
    · rfl
  | @ndjson _ decoder limit hlimit =>
    refine ⟨_, hands_invokeNdjson hlimit decoder args, fun started => ?_⟩
    rcases limit with _ | _ | n
    · rfl
    · exact absurd rfl hlimit
    · rfl

theorem not_misses_of_tells {listeners : List Listener} {s s' : World ε} (h : Tells listeners s s') :
    ¬ Misses s s' := by
  rcases h with rfl | ⟨event, rfl⟩
  · exact not_misses_of_kept rfl
  · exact not_misses_told _ _

/-- An answer that ends the dispatch ends the invocation. -/
theorem Empties.endsAtOnce (h : m.Empties args x a) {listeners : List Listener} {key : Option String}
    (hdispatch : EndsMissing listeners key (m.dispatch args)) :
    EndsAtOnce (fun w => Misses w.before w.after) a (Closing listeners key) x := by
  obtain ⟨rest, ⟨rfl, htells⟩, hempty⟩ := h.hands
  refine endsAtOnce_then writes_now fun started => hdispatch.andThen (hempty started) fun r => ?_
  exact endsAtOnce_of_never fun _ _ _ _ _ _ hends w hw => not_misses_of_tells ((htells started r).writes hends w hw)

end Empty

end Method

/-! ## Two clients -/

namespace Builder

/-- The same client with `decode404` or without it. -/
def decoding (b : Builder ε) (flag : Bool) : Builder ε := { b with config := { b.config with decode404 := flag } }

section Services

variable {b : Builder ε} {around : Surroundings ε} {rule : HeaderRule}

theorem agree_backing (b : Builder ε) (around : Surroundings ε) (rule : HeaderRule) (flag flag' : Bool)
    (method : String) :
    AgreeUntilMissing ((b.decoding flag).backing ((b.decoding flag).exchange around rule) method)
      ((b.decoding flag').backing ((b.decoding flag').exchange around rule) method) := by
  have hattempt : AgreeUntilMissing (executing ((b.decoding flag).exchange around rule))
      (executing ((b.decoding flag').exchange around rule)) := agree_executing (b.exchange around rule) flag flag'
  have hregistry : ∀ flag, registry? (b.decoding flag) = b.registry? := fun _ => rfl
  unfold backing
  rw [hregistry, hregistry]
  cases b.registry? with
  | none => exact hattempt
  | some registry => exact agree_guarding hattempt _ _ _

theorem agree_service (b : Builder ε) (around : Surroundings ε) (rule : HeaderRule) (flag flag' : Bool)
    (endpoint : Endpoint) : AgreeUntilMissing
      ((b.decoding flag).complete around ((b.decoding flag).exchange around rule) endpoint).service
      ((b.decoding flag').complete around ((b.decoding flag').exchange around rule) endpoint).service := by
  have hbalanced : AgreeUntilMissing
      ((b.decoding flag).balanced ((b.decoding flag).backing ((b.decoding flag).exchange around rule) endpoint.key))
      ((b.decoding flag').balanced
        ((b.decoding flag').backing ((b.decoding flag').exchange around rule) endpoint.key)) := by
    have hbacking := agree_backing b around rule flag flag' endpoint.key
    have htarget : ∀ flag, (b.decoding flag).target = b.target := fun _ => rfl
    unfold balanced
    rw [htarget, htarget]
    split
    · exact agree_balancing hbacking _ _
    · exact hbacking
  have hpolicy : ∀ flag, (b.decoding flag).policy? around = b.policy? around := fun _ => rfl
  unfold complete retried
  dsimp only
  rw [hpolicy, hpolicy]
  cases b.policy? around with
  | some policy => exact agree_retrying hbalanced policy _
  | none => exact hbalanced

/-- With the flag a method ends with an answer that has status 404. -/
theorem endsMissing_dispatch {endpoint : Endpoint} (hdecode : b.config.decode404 = true) (args : List Argument) :
    EndsMissing b.allListeners (b.breakerKey? endpoint.key)
      ((b.complete around (b.exchange around rule) endpoint).dispatch args) := by
  have hbacking : ∀ call, EndsMissing b.allListeners (b.breakerKey? endpoint.key)
      (b.backing (b.exchange around rule) endpoint.key call) := by
    intro call
    unfold backing
    unfold breakerKey?
    cases b.registry? with
    | none => exact endsMissing_executing hdecode call
    | some registry => exact endsMissing_guarding hdecode _ _ _ call
  have hbalanced : ∀ call, EndsMissing b.allListeners (b.breakerKey? endpoint.key)
      (b.balanced (b.backing (b.exchange around rule) endpoint.key) call) := by
    intro call
    unfold balanced
    split
    · exact endsMissing_balancing hbacking _ _ call
    · exact hbacking call
  unfold Method.dispatch complete retried
  dsimp only
  cases b.policy? around with
  | some policy => exact endsMissing_retrying hbalanced policy _ _
  | none => exact hbalanced _

end Services

end Builder

namespace Client

/-- A program, run with two clients: invocations of methods under one key, work of collaborators, waits, sequences
of these, each of which may depend on the results so far, and time limits. -/
inductive Drives (c c' : Client ε) : {α : Type} → Stage ε α → Stage ε α → Prop
  | invocation {key : String} {m m' : Method ε} {args : List Argument} {α : Type} {x y : Stage ε α} :
      c.method? key = some m → c'.method? key = some m' → m.InvokesAlike m' args x y → Drives c c' x y
  | outside {α : Type} (work : Fiber (Outside ε) α) : Drives c c' (Stage.outside work) (Stage.outside work)
  | sleep (d : Duration) : Drives c c' (Fiber.sleep d) (Fiber.sleep d)
  | done {α : Type} (a : α) : Drives c c' (.done a) (.done a)
  | andThen {α β : Type} {x y : Stage ε α} {f g : α → Stage ε β} :
      Drives c c' x y → (∀ a, Drives c c' (f a) (g a)) → Drives c c' (x.andThen f) (y.andThen g)
  | within {α : Type} {x y : Stage ε α} (limit : Nat) : Drives c c' x y → Drives c c' (x.within limit) (y.within limit)

section Pairs

variable {b : Builder ε} {around : Surroundings ε} {client client' : Client ε} {t₀ t₁ t₂ t₃ : Instant}
  {s₀ s₁ s₂ s₃ : World ε} {ws₀ ws₂ : List (Write (World ε))} {flag flag' : Bool}

/-- The methods of one key differ in their pipelines only, and these agree. -/
theorem method?_of_decoding (h : Ends ((b.decoding flag).build around) t₀ s₀ ws₀ (.ok client) t₁ s₁)
    (h' : Ends ((b.decoding flag').build around) t₂ s₂ ws₂ (.ok client') t₃ s₃) {key : String} {m m' : Method ε}
    (hm : client.method? key = some m) (hm' : client'.method? key = some m') :
    ∃ service, m' = { m with service } ∧ AgreeUntilMissing m.service service := by
  obtain ⟨endpoints, rule, hchecked, hrule, hmethods⟩ := Builder.methods_of_build h
  obtain ⟨endpoints', rule', hchecked', hrule', hmethods'⟩ := Builder.methods_of_build h'
  -- the flag has no part in what is checked when a client is built
  obtain rfl : endpoints = endpoints' := Except.ok.inj (hchecked.symm.trans hchecked')
  obtain rfl : rule = rule' := Except.ok.inj (hrule.symm.trans hrule')
  unfold method? at hm hm'
  rw [hmethods, List.find?_map] at hm
  rw [hmethods', List.find?_map] at hm'
  obtain ⟨endpoint, hfound, rfl⟩ := Option.map_eq_some_iff.1 hm
  obtain ⟨endpoint', hfound', rfl⟩ := Option.map_eq_some_iff.1 hm'
  obtain rfl : endpoint = endpoint' := Option.some.inj (hfound.symm.trans hfound')
  exact ⟨_, rfl, b.agree_service around rule flag flag' endpoint⟩

theorem Drives.agree (h : Ends ((b.decoding flag).build around) t₀ s₀ ws₀ (.ok client) t₁ s₁)
    (h' : Ends ((b.decoding flag').build around) t₂ s₂ ws₂ (.ok client') t₃ s₃) {x y : Stage ε α}
    (hdrives : Drives client client' x y) : ∀ s, AgreeUntil Misses (fun _ => True) x y s := by
  induction hdrives with
  | invocation hm hm' hinvokes =>
    obtain ⟨service, rfl, hservice⟩ := method?_of_decoding h h' hm hm'
    exact hinvokes.agree hservice
  | outside work => exact agreeUntil_refl _
  | sleep d => exact agreeUntil_refl _
  | done a => exact agreeUntil_refl _
  | andThen _ _ ihx ihf => exact fun s => (ihx s).andThen fun a s _ => ihf a s
  | within limit _ ih => exact fun s => (ih s).within limit

end Pairs

end Client

/-- The flag `decode404` matters for 404 only. Two clients that differ in the flag, each driven by the same tasks
in the same order of turns, come to the same time and the same state (of the collaborators, the breakers and the
timeline) by the same writes and with the same results, unless some answer has status 404. With the flag such an
answer ends its invocation at that instant, with no element or item, whatever came with it: on every path, at the
next rest after the answer the invocation has ended, and the writes after the answer are that the listeners are told
of it and, behind a breaker, that its success is recorded under the permit that the attempt was admitted with. -/
theorem decode404_only_404 (b : Builder ε) (around : Surroundings ε) {client client' : Client ε}
    {t₀ t₁ t₂ t₃ : Instant} {s₀ s₁ s₂ s₃ : World ε} {ws₀ ws₂ : List (Write (World ε))}
    (hoff : Ends ((b.decoding false).build around) t₀ s₀ ws₀ (.ok client) t₁ s₁)
    (hon : Ends ((b.decoding true).build around) t₂ s₂ ws₂ (.ok client') t₃ s₃) :
    (∀ (β : Type) (tasks tasks' : List (Task (World ε) β)),
      List.Forall₂ (fun one other => one.due = other.due ∧ client.Drives client' one.rest other.rest) tasks tasks' →
      ∀ t s turns,
        let c := (Crowd.start t s tasks).run turns
        let c' := (Crowd.start t s tasks').run turns
        (¬ Crowd.Parted Misses c ∨ ¬ Crowd.Parted Misses c') →
          c.time = c'.time ∧ c.state = c'.state ∧ c.writes = c'.writes ∧ ∀ number, c.result? number = c'.result? number) ∧
    ∀ m ∈ client'.methods, ∀ (args : List Argument) (α : Type) (x : Stage ε α) (a : α), m.Empties args x a →
      ∀ t s before w after y t' s', Goes x t s (before ++ w :: after) y t' s' → y.Rests → Misses w.before w.after →
        y = .done a ∧ t' = w.time ∧ ∃ early attempt, before = early ++ attempt ∧
          Closing b.allListeners (b.breakerKey? m.key) attempt w after s' := by
  refine ⟨fun β tasks tasks' htasks => ?_, ?_⟩
  -- task by task both do the same up to an answer with a 404, and so do the crowds
  · have hleft : List.Forall₂ (LeftAlike Misses fun _ => True) tasks tasks' :=
      htasks.imp fun one other ⟨hdue, hdrives⟩ => ⟨hdue, hdrives.agree hoff hon⟩
    exact Crowd.agree_run hleft
  · intro m hm args α x a hempties t s before w after y t' s' hgoes hy hmisses
    obtain ⟨endpoints, rule, -, -, hmethods⟩ := Builder.methods_of_build hon
    rw [hmethods] at hm
    obtain ⟨endpoint, -, rfl⟩ := List.mem_map.1 hm
    have hdispatch := @Builder.endsMissing_dispatch _ (b.decoding true) around rule endpoint rfl args
    exact hempties.endsAtOnce hdispatch hgoes hy hmisses

/-! ## A resource that goes away -/

namespace Decode404

def endpoint : Endpoint := ⟨"Api#get()", "GET", .compile "/", [], [], [], none, none, none, .single⟩

/-- A client with a retry, a breaker and a fallback. Its transport answers the first request, and every later one
with a 404 whose body cannot be read. -/
def fading : Builder Nat where
  target := .url "https://localhost"
  config := { ClientConfig.minimal with retry := some ⟨1, .none, false⟩, breaker := some .default }
  methods := [endpoint]
  transport := some fun _ => .modifyGet fun _ o =>
    (if o.own = 0 then .ok ⟨.ok, .empty, [.chunk [120]], none⟩
      else .ok ⟨.notFound, .empty, [.failure (.body "reset")], none⟩, { o with own := o.own + 1 })
  fallbacks := fun _ _ => some fun _ _ cause => .done (.error cause)
  listeners := [.recorder "l"]

def offline : Surroundings Nat := ⟨0, fun _ => .ofNat 0, fun _ => .done (.error (.transport .connect "no network"))⟩

/-- A world after so many requests. -/
def after (requests : Nat) : World Nat := ⟨⟨[], requests⟩, .empty .default, []⟩

/-- The one invocation of a method. -/
def run (m : Method Nat) : Crowd (World Nat) (Except Error (Option Bytes)) :=
  (Crowd.start 0 (after 0) [⟨0, m.invokeSingle []⟩]).run [⟨0, 0⟩]

/-- The only method of a client with the flag or without it. -/
theorem method?_of_fading {flag : Bool} {client : Client Nat} {t₀ t₁ : Instant} {s₀ s₁ : World Nat}
    {ws₀ : List (Write (World Nat))}
    (h : Ends ((fading.decoding flag).build offline) t₀ s₀ ws₀ (.ok client) t₁ s₁) {m : Method Nat}
    (hm : m ∈ client.methods) : client.method? "Api#get()" = some m ∧ m.key = "Api#get()" := by
  obtain ⟨endpoints, rule, hchecked, -, hmethods⟩ := Builder.methods_of_build h
  obtain rfl : [endpoint] = endpoints := Except.ok.inj hchecked
  unfold Client.method?
  rw [hmethods] at hm ⊢
  obtain rfl := List.mem_singleton.1 hm
  exact ⟨rfl, rfl⟩

/-- The first answer is the same with the flag and without it. With it the second one ends its invocation with no
element, although it would be retried without it. -/
theorem decode404_only_404_fading :
    ∃ client client' t₁ s₁ ws₀ t₃ s₃ ws₂ m m' before w later t' s',
      Ends ((fading.decoding false).build offline) 0 (after 0) ws₀ (.ok client) t₁ s₁ ∧
      Ends ((fading.decoding true).build offline) 0 (after 0) ws₂ (.ok client') t₃ s₃ ∧
      m ∈ client.methods ∧ m' ∈ client'.methods ∧
      (run m).result? 0 = some (.ok (some [120])) ∧ ¬ Crowd.Parted Misses (run m) ∧
      (run m).state = (run m').state ∧ (run m').result? 0 = some (.ok (some [120])) ∧
      Ends (m'.invokeSingle []) 0 (after 1) (before ++ w :: later) (.ok none) t' s' ∧
      Misses w.before w.after ∧ t' = w.time ∧ ∃ early attempt, before = early ++ attempt ∧
        Closing [.recorder "l"] (some "Api#get()@https://localhost") attempt w later s' := by
  have hoff : ((fading.decoding false).first offline (after 0)).map (fun p =>
      ((run p.1).result? 0, (run p.1).writes.all fun entry => !decide (Misses entry.2.before entry.2.after))) =
      some (some (.ok (some [120])), true) := by decide +kernel
  have hon : ((fading.decoding true).first offline (after 0)).map (fun p =>
      (((p.1.invokeSingle []).run 0 (after 1)).1,
        ((p.1.invokeSingle []).trail 0 (after 1)).any fun w => decide (Misses w.before w.after))) =
      some (.ok none, true) := by decide +kernel
  obtain ⟨⟨m, t₁, s₁⟩, hfirst, hrun⟩ := Option.map_eq_some_iff.1 hoff
  obtain ⟨⟨m', t₃, s₃⟩, hfirst', hpath⟩ := Option.map_eq_some_iff.1 hon
  obtain ⟨hresult, hwrites⟩ := Prod.mk.inj hrun
  obtain ⟨houtcome, hmissed⟩ := Prod.mk.inj hpath
  obtain ⟨client, ws₀, hbuild, hm⟩ := Builder.ends_of_first hfirst
  obtain ⟨client', ws₂, hbuild', hm'⟩ := Builder.ends_of_first hfirst'
  obtain ⟨hkey, -⟩ := method?_of_fading hbuild hm
  obtain ⟨hkey', hname⟩ := method?_of_fading hbuild' hm'
  have hnone : ¬ Crowd.Parted Misses (run m) := by
    rintro ⟨entry, hmem, hmisses⟩
    have hall := List.all_eq_true.1 hwrites entry hmem
    simp [hmisses] at hall
  obtain ⟨w, hw, hmisses⟩ := List.any_eq_true.1 hmissed
  obtain ⟨before, later, hsplit⟩ := List.append_of_mem hw
  have hends := ends_trail (m'.invokeSingle []) 0 (after 1)
  rw [houtcome, hsplit] at hends
  have hdrives : client.Drives client' (m.invokeSingle []) (m'.invokeSingle []) := .invocation hkey hkey' .single
  obtain ⟨hsame, hmissing⟩ := decode404_only_404 fading offline hbuild hbuild'
  obtain ⟨-, hstate, -, hresults⟩ := hsame _ [⟨0, m.invokeSingle []⟩] [⟨0, m'.invokeSingle []⟩]
    (.cons ⟨rfl, hdrives⟩ .nil) 0 (after 0) [⟨0, 0⟩] (.inl hnone)
  obtain ⟨-, htime, hclosing⟩ := hmissing m' hm' [] _ _ _ .single _ _ _ _ _ _ _ _ hends trivial
    (of_decide_eq_true hmisses)
  rw [hname] at hclosing
  exact ⟨client, client', t₁, s₁, ws₀, t₃, s₃, ws₂, m, m', before, w, later, _, _, hbuild, hbuild', hm, hm', hresult,
    hnone, hstate, (hresults 0).symm.trans hresult, hends, of_decide_eq_true hmisses, htime, hclosing⟩

end Decode404

end ResilientClient
