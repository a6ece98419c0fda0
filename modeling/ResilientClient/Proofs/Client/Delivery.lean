/-
Deliveries. A stream of a method is polled item by item: the first poll makes the call, each poll gives the next item
of its response and tells the listeners of just that item, and after a failure there are no more (`ends_polls_begun`).
To read a limited number of items is to poll as often (`invokeStream_eq_polls`). So what the listeners are told of the
items of a stream are those that the caller has received, and while a poll waits they are told of none (`delivery`).
-/
import ResilientClient.Proofs.Client.Instrumentation
import ResilientClient.Proofs.Client.Scanning

open ResilientClient.Fiber ResilientClient.Pipeline

namespace ResilientClient

variable {ε : Type}

namespace Method

/-! ## Polls -/

/-- A stream between two polls. -/
inductive Streaming where
  /-- The method has not been called. -/
  | unstarted (args : List Argument)
  /-- The call began at an instant, and this is left of its response. -/
  | begun (started : Instant) (rest : BodyStream)

/-- The next item of a response, and the stream behind it; after a failure nothing is left. -/
def nextItem (m : Method ε) (started : Instant) : BodyStream → Stage ε (Option (Except Error Bytes) × Streaming)
  | [] => .done (none, .begun started [])
  | .pause d :: rest => (Fiber.sleep d).andThen fun _ => m.nextItem started rest
  | .chunk bytes :: rest => (m.tellElement bytes).andThen fun _ => .done (some (.ok bytes), .begun started rest)
  | .failure e :: _ => (m.tellFailure started e).andThen fun _ => .done (some (.error e), .begun started [])

/-- Polls a stream: the first poll calls the method. -/
def next (m : Method ε) : Streaming → Stage ε (Option (Except Error Bytes) × Streaming)
  | .unstarted args => m.startStream args m.nextItem
  | .begun started rest => m.nextItem started rest

/-- What so many polls in a row give; a poll that gives nothing says that the end was reached. -/
def polls (m : Method ε) : Nat → Streaming → Stage ε (List (Option (Except Error Bytes)))
  | 0, _ => .done []
  | k + 1, stream => (m.next stream).andThen fun p => (m.polls k p.2).andThen fun later => .done (p.1 :: later)

/-- The items that polls have given, and whether the end was reached. -/
def received (answers : List (Option (Except Error Bytes))) : List (Except Error Bytes) × Bool :=
  (answers.filterMap id, decide (none ∈ answers))

theorem received_some (item : Except Error Bytes) (answers : List (Option (Except Error Bytes))) :
    received (some item :: answers) = (item :: (received answers).1, (received answers).2) := by
  simp [received]

theorem received_nothing (k : Nat) : received (List.replicate k none) = ([], decide (k ≠ 0)) := by
  induction k with
  | zero => rfl
  | succ k ih =>
    rw [received, Prod.mk.injEq] at ih
    simp [received, List.replicate_succ]

section Limits

variable (m : Method ε)

/-- At the end of a stream there is nothing, however often it is polled. -/
theorem polls_of_nothing (started : Instant) (k : Nat) :
    m.polls k (.begun started []) = .done (List.replicate k none) := by
  induction k with
  | zero => rfl
  | succ k ih =>
    change (m.polls k (.begun started [])).andThen _ = _
    rw [ih]
    rfl

theorem deliver_eq_polls (started : Instant) (body : BodyStream) : ∀ k, m.deliver started (some (k + 1)) body =
    (m.nextItem started body).andThen fun p =>
      (m.polls k p.2).andThen fun later => .done (received (p.1 :: later)) := by
  induction body with
  | nil =>
    intro k
    have hend : received (none :: List.replicate k none) = ([], true) := received_nothing (k + 1)
    simp only [deliver, nextItem, done_andThen, polls_of_nothing, hend]
  | cons item rest ih =>
    intro k
    cases item with
    | pause d => simp only [deliver, nextItem, andThen_assoc, ih]
    | chunk bytes =>
      simp only [deliver, nextItem, andThen_assoc, done_andThen, Option.map_some, Nat.add_sub_cancel]
      congr 1
      funext _
      -- behind the last item that is wanted, the end is not looked for
      cases k with
      | zero => cases rest <;> rfl
      | succ k => simp only [ih, polls, next, andThen_assoc, done_andThen, received_some]
    | failure e =>
      simp only [deliver, nextItem, andThen_assoc, done_andThen, polls_of_nothing, received_some, received_nothing]
      simp

/-- To read at most so many items of a stream is to poll it as often. -/
theorem invokeStream_eq_polls (args : List Argument) (k : Nat) :
    m.invokeStream args (some k) = (m.polls k (.unstarted args)).andThen fun answers => .done (received answers) := by
  cases k with
  | zero => rfl
  | succ k =>
    simp only [invokeStream, polls, next, startStream, andThen_assoc, deliver_eq_polls, done_andThen]
    simp

end Limits

/-! ## What polls give and tell -/

/-- The event tells of an item. -/
def Reports (method : String) : Except Error Bytes → Event → Prop
  | .ok bytes, event => event = .bodyElement method bytes
  | .error e, event => ∃ elapsed, event = .errorReceived method e elapsed

section Paths

variable {m : Method ε} {started t t' : Instant} {s s' : World ε} {ws : List (Write (World ε))} {body : BodyStream}
  {answers : List (Option (Except Error Bytes))} {k : Nat}

/-- A poll gives the first item that is left, and tells of it. -/
theorem ends_nextItem {p : Option (Except Error Bytes) × Streaming}
    (h : Ends (m.nextItem started body) t s ws p t' s') :
    ∃ rest episodes, p = (body.handed.head?, .begun started rest) ∧ rest.handed = body.handed.tail ∧
      Narrates m.listeners ws episodes ∧
      List.Forall₂ (Reports m.key) (body.handed.take 1) (itemEvents episodes) := by
  induction body generalizing t s ws with
  | nil =>
    obtain ⟨rfl, rfl, -, -⟩ := ends_done.1 h
    exact ⟨[], [], rfl, rfl, narrates_nil, .nil⟩
  | cons item rest ih =>
    cases item with
    | pause d =>
      obtain ⟨us, _, t₁, s₁, vs, rfl, hsleep, hrest⟩ := (ends_andThen _ _).1 h
      obtain rfl := ends_sleep hsleep
      exact ih hrest
    | chunk bytes =>
      obtain ⟨us, _, t₁, s₁, vs, rfl, htell, hend⟩ := (ends_andThen _ _).1 h
      obtain ⟨rfl, rfl, -, -⟩ := ends_done.1 hend
      rw [List.append_nil]
      exact ⟨rest, [.told (.bodyElement m.key bytes)], rfl, rfl, narrates_of_note (.told _) htell,
        .cons rfl .nil⟩
    | failure e =>
      obtain ⟨us, _, t₁, s₁, vs, rfl, htell, hend⟩ := (ends_andThen _ _).1 h
      obtain ⟨rfl, rfl, -, -⟩ := ends_done.1 hend
      obtain ⟨rfl, htold⟩ := narrates_of_tellFailure htell
      rw [List.append_nil]
      exact ⟨[], [.told (.errorReceived m.key e (t₁ - started))], rfl, rfl, htold, .cons ⟨_, rfl⟩ .nil⟩

/-- By induction on the polls: they give the items in order and then nothing, and tell of the items that they give. -/
theorem ends_polls_begun : ∀ {k : Nat} {body : BodyStream} {t : Instant} {s : World ε} {ws : List (Write (World ε))}
    {answers : List (Option (Except Error Bytes))}, Ends (m.polls k (.begun started body)) t s ws answers t' s' →
      answers = (body.handed.take k).map some ++ List.replicate (k - body.handed.length) none ∧
      ∃ episodes, Narrates m.listeners ws episodes ∧
        List.Forall₂ (Reports m.key) (body.handed.take k) (itemEvents episodes)
  | 0, body, t, s, ws, answers, h => by
    obtain ⟨rfl, rfl, -, -⟩ := ends_done.1 h
    exact ⟨by simp, [], narrates_nil, by simp [itemEvents]⟩
  | k + 1, body, t, s, ws, answers, h => by
    obtain ⟨us, p, t₁, s₁, vs, rfl, hnext, hrest⟩ := (ends_andThen _ _).1 h
    obtain ⟨rest, episodes, rfl, hhanded, hnarrates, hreports⟩ := ends_nextItem hnext
    obtain ⟨us', later, t₂, s₂, vs', rfl, hpolls, hend⟩ := (ends_andThen _ _).1 hrest
    obtain ⟨rfl, rfl, rfl, rfl⟩ := ends_done.1 hend
    obtain ⟨hlater, more, hnarrates', hreports'⟩ := ends_polls_begun hpolls
    rw [hhanded] at hlater hreports'
    rw [List.append_nil]
    refine ⟨?_, episodes ++ more, hnarrates.append hnarrates', ?_⟩
    · rw [hlater]
      cases body.handed with
      | nil => simp [List.replicate_succ]
      | cons item items => simp
    · have hsplit : body.handed.take (k + 1) = body.handed.take 1 ++ body.handed.tail.take k := by
        cases body.handed <;> simp
      rw [itemEvents_append, hsplit]
      exact List.rel_append hreports hreports'

/-- The first poll makes the call, and then the items are polled. -/
theorem ends_polls_unstarted {args : List Argument}
    (h : Ends (m.polls (k + 1) (.unstarted args)) t s ws answers t' s') :
    ∃ us o t₁ s₁ vs, ws = us ++ vs ∧ Ends (m.dispatch args) t s us o t₁ s₁ ∧
      Ends (m.polls (k + 1) (.begun t (itemsOf o))) t₁ s₁ vs answers t' s' := by
  simp only [polls, next, startStream, andThen_assoc] at h
  obtain ⟨us₀, started, t₀, s₀, vs₀, rfl, hnow, hrest⟩ := (ends_andThen _ _).1 h
  obtain ⟨rfl, rfl, rfl, rfl⟩ := ends_now.1 hnow
  obtain ⟨us, o, t₁, s₁, vs, rfl, hdispatch, hitems⟩ := (ends_andThen _ _).1 hrest
  exact ⟨us, o, t₁, s₁, vs, rfl, hdispatch, hitems⟩

/-- While a begun stream waits for an item, nothing is told. -/
theorem goes_nextItem {wait : Nat} {drop : World ε → World ε} {rest : Stage ε (Option (Except Error Bytes) × Streaming)}
    (h : Goes (m.nextItem started body) t s ws (.pause wait drop rest) t' s') : ws = [] := by
  induction body generalizing t s ws with
  | nil => cases h
  | cons item body ih =>
    cases item with
    | pause d =>
      rcases goes_andThen_pause _ h with ⟨rest', hsleep⟩ | ⟨us, _, t₁, s₁, vs, rfl, hsleep, hrest⟩
      · obtain ⟨vs, hend⟩ := ends_run (.pause wait drop rest') t' s'
        exact (List.append_eq_nil_iff.1 (ends_sleep (hsleep.trans hend))).1
      · rw [ends_sleep hsleep, ih hrest]
        rfl
    | chunk bytes =>
      obtain ⟨vs, -, hdone⟩ := goes_note_andThen h
      cases hdone
    | failure e =>
      unfold nextItem tellFailure at h
      rw [andThen_assoc] at h
      cases h with | look h =>
      obtain ⟨vs, -, hdone⟩ := goes_note_andThen h
      cases hdone

end Paths

end Method

/-- What a call that is under way has told is of no item. -/
theorem reportsItem_of_goes {m : Method ε} {args : List Argument} {listeners : List Listener}
    (hcalls : ∀ t s ws r t' s', Ends (m.dispatch args) t s ws r t' s' →
      ∃ episodes, Narrates listeners ws episodes ∧ itemEvents episodes = [])
    {y : Stage ε Outcome} {t t' : Instant} {s s' : World ε} {ws : List (Write (World ε))}
    (h : Goes (m.dispatch args) t s ws y t' s') {heard : String × Event}
    (hheard : heard ∈ (gainedIn World.past ws).filterMap Occurrence.heard?) : heard.2.reportsItem = false := by
  -- what is told so far is told on the path to some end of the call as well
  obtain ⟨vs, hrest⟩ := ends_run y t' s'
  obtain ⟨episodes, hnarrates, hnone⟩ := hcalls _ _ _ _ _ _ (h.trans hrest)
  have hall : heard ∈ (gainedIn World.past (ws ++ vs)).filterMap Occurrence.heard? := by
    rw [gainedIn_append, List.filterMap_append]
    exact List.mem_append_left _ hheard
  rw [hnarrates.heard] at hall
  obtain ⟨event, hevent, hlistener⟩ := List.mem_flatMap.1 hall
  have hkept : heard.2 = event := by
    obtain ⟨listener, -, hkeeps⟩ := List.mem_filterMap.1 hlistener
    cases listener with
    | recorder name => cases hkeeps; rfl
    | silent => cases hkeeps
    | logger level => cases hkeeps
  rw [hkept]
  by_contra hreports
  have hmem : event ∈ itemEvents episodes := List.mem_filter.2 ⟨hevent, by simpa using hreports⟩
  rw [hnone] at hmem
  cases hmem

/-- To read at most a number of items of a stream is to poll it as often. Without a poll nothing is done. Otherwise
the method is called once, and the polls give the items of its response up to the first failure, or the failure of the
call alone, in order, and then nothing however often the stream is polled. Of all items the listeners are told of those
that are given, once and in order, and while a poll waits for an item they are told of none. -/
theorem delivery (b : Builder ε) (around : Surroundings ε) {client : Client ε} {t₀ t₁ : Instant} {s₀ s₁ : World ε}
    {ws₀ : List (Write (World ε))} (hbuild : Ends (b.build around) t₀ s₀ ws₀ (.ok client) t₁ s₁) :
    ∀ m ∈ client.methods, ∀ (args : List Argument) (k : Nat),
      m.invokeStream args (some k) =
        ((m.polls k (.unstarted args)).andThen fun answers => .done (Method.received answers)) ∧
      (∀ t s ws answers t' s', Ends (m.polls k (.unstarted args)) t s ws answers t' s' →
        (k = 0 → ws = [] ∧ answers = []) ∧
        (0 < k → ∃ us vs o t₂ s₂ episodes, ws = us ++ vs ∧ Ends (m.dispatch args) t s us o t₂ s₂ ∧
          answers = ((Method.itemsOf o).handed.take k).map some ++
            List.replicate (k - (Method.itemsOf o).handed.length) none ∧
          Narrates b.allListeners ws episodes ∧
          (gainedIn World.past ws).filterMap Occurrence.heard? =
            (episodes.filterMap Episode.event?).flatMap (hearing b.allListeners) ∧
          List.Forall₂ (Method.Reports m.key) ((Method.itemsOf o).handed.take k) (itemEvents episodes))) ∧
      ∀ stream t s ws wait drop rest t' s', Goes (m.next stream) t s ws (.pause wait drop rest) t' s' →
        ∀ heard ∈ (gainedIn World.past ws).filterMap Occurrence.heard?, heard.2.reportsItem = false := by
  obtain ⟨rule, -, hmethods⟩ := Builder.loops_of_dispatch hbuild
  intro m hm args k
  obtain ⟨hlisteners, hloops⟩ := hmethods m hm
  have hcalls : ∀ args t s ws r t' s', Ends (m.dispatch args) t s ws r t' s' →
      ∃ episodes, Narrates b.allListeners ws episodes ∧ itemEvents episodes = [] := by
    intro args t s ws r t' s' hends
    obtain ⟨episodes, hepisodes⟩ := hloops _ _ _ _ _ _ _ hends
    exact ⟨episodes, hepisodes.narrates, hepisodes.itemEvents⟩
  refine ⟨m.invokeStream_eq_polls args k, ?_, ?_⟩
  · intro t s ws answers t' s' hends
    cases k with
    | zero =>
      obtain ⟨rfl, rfl, -, -⟩ := ends_done.1 hends
      exact ⟨fun _ => ⟨rfl, rfl⟩, fun hpos => absurd hpos (Nat.lt_irrefl 0)⟩
    | succ k =>
      refine ⟨fun hzero => absurd hzero (Nat.succ_ne_zero k), fun _ => ?_⟩
      obtain ⟨us, o, t₂, s₂, vs, rfl, hdispatch, hpolls⟩ := Method.ends_polls_unstarted hends
      obtain ⟨episodes, hnarrates, hnone⟩ := hcalls _ _ _ _ _ _ _ hdispatch
      obtain ⟨hanswers, more, hnarrates', hreports⟩ := Method.ends_polls_begun hpolls
      rw [hlisteners] at hnarrates'
      have hall := hnarrates.append hnarrates'
      refine ⟨us, vs, o, t₂, s₂, episodes ++ more, rfl, hdispatch, hanswers, hall, hall.heard, ?_⟩
      rwa [itemEvents_append, hnone, List.nil_append]
  · intro stream t s ws wait drop rest t' s' hgoes heard hheard
    cases stream with
    | begun started body =>
      rw [Method.goes_nextItem hgoes] at hheard
      cases hheard
    | unstarted args' =>
      cases hgoes with | look hgoes =>
      -- either the call is under way, or it has ended and its first item is waited for
      rcases goes_andThen_pause (m.dispatch args') hgoes with ⟨rest', hdispatch⟩ |
        ⟨us, o, t₂, s₂, vs, rfl, hdispatch, hitems⟩
      · exact reportsItem_of_goes (hcalls args') hdispatch hheard
      · rw [Method.goes_nextItem hitems, List.append_nil] at hheard
        exact reportsItem_of_goes (hcalls args') hdispatch hheard

/-! ## A stream with a failure in it -/

namespace Builder

/-- A client with one listener, the response of which goes on after a failure. -/
def faltering : Builder Unit where
  target := .url "https://localhost"
  config := ClientConfig.minimal
  methods := [⟨"Api#stream()", "GET", .compile "/", [], [], [], none, none, none, .stream⟩]
  transport := some fun _ => .done (.ok ⟨.ok, .empty, [.chunk [120], .failure (.body "reset"), .chunk [121]], none⟩)
  listeners := [.recorder "events"]

end Builder

/-- An element, a failure, and then nothing: two of the four events that are told are of items. -/
theorem delivery_of_faltering :
    ∃ client ws₀ t₁ s₁ m ws t' s', Ends (Builder.faltering.build Builder.nowhere) 0 Builder.untouched ws₀ (.ok client)
      t₁ s₁ ∧ m ∈ client.methods ∧
      Ends (m.polls 4 (.unstarted [])) t₁ s₁ ws [some (.ok [120]), some (.error (.body "reset")), none, none] t' s' ∧
      ∃ o episodes, (Method.itemsOf o).handed.take 4 = [.ok [120], .error (.body "reset")] ∧
        Narrates Builder.faltering.allListeners ws episodes ∧
        List.Forall₂ (Method.Reports m.key) [.ok [120], .error (.body "reset")] (itemEvents episodes) := by
  have hrun : (Builder.faltering.first Builder.nowhere Builder.untouched).map (fun p =>
      ((p.1.polls 4 (.unstarted [])).run p.2.1 p.2.2).1) =
      some [some (.ok [120]), some (.error (.body "reset")), none, none] := by decide +kernel
  obtain ⟨⟨m, t₁, s₁⟩, hfirst, hanswers⟩ := Option.map_eq_some_iff.1 hrun
  obtain ⟨client, ws₀, hbuild, hm⟩ := Builder.ends_of_first hfirst
  obtain ⟨ws, hends⟩ := ends_run (m.polls 4 (.unstarted [])) t₁ s₁
  rw [hanswers] at hends
  obtain ⟨-, hall, -⟩ := delivery Builder.faltering Builder.nowhere hbuild m hm [] 4
  obtain ⟨us, vs, o, t₂, s₂, episodes, -, -, hgiven, hnarrates, -, hreports⟩ :=
    (hall _ _ _ _ _ _ hends).2 (by decide)
  have hitems : (Method.itemsOf o).handed.take 4 = [.ok [120], .error (.body "reset")] := by
    generalize (Method.itemsOf o).handed.take 4 = items at hgiven ⊢
    simpa using (congrArg (List.filterMap id) hgiven).symm
  rw [hitems] at hreports
  exact ⟨client, ws₀, t₁, s₁, m, ws, _, _, hbuild, hm, hends, o, episodes, hitems, hnarrates, hreports⟩

end ResilientClient
