/-
Narrations. What an invocation notes on its path is a row of episodes, each of them told to all listeners at once,
and between them there are other notes (`Narrates`). An attempt narrates at most one exchange: its request is told
right before it is handed to the transport, and the response right after it has come (`exchanges_of_executing`),
also if a time limit cuts the attempt off. So the calls behind balancing narrate exchanges only, and retries tell
of each failure that is retried between two such rows (`loops_of_attemptsFrom`). Neither tells of an item that is
handed over (`Loops.itemEvents`).
-/
import ResilientClient.Proofs.Pipeline.Sending

open ResilientClient.Fiber ResilientClient.Pipeline

namespace ResilientClient

variable {ε α β : Type}

/-! ## Episodes -/

/-- What the listeners are told about an invocation, with the step of the transport that it is about. -/
inductive Episode where
  /-- The listeners are told of a request, and it is handed to the transport. -/
  | started (request : Request)
  /-- The transport fails. -/
  | failed (request : Request) (e : Error)
  /-- The transport responds, and the listeners are told of the response. -/
  | answered (request : Request) (status : Http.Status) (headers : Http.Headers) (elapsed : Nat)
  /-- The listeners are told of something else. -/
  | told (event : Event)

namespace Episode

/-- What is noted, in order. -/
def noted (listeners : List Listener) : Episode → List Occurrence
  | started request => World.told listeners (.requestStarted request) ++ [.sent request]
  | failed request e => [.answered request (.error e)]
  | answered request status headers elapsed =>
    .answered request (.ok status) :: World.told listeners (.responseReceived request status headers elapsed)
  | told event => World.told listeners event

/-- The request that is handed to the transport. -/
def sent? : Episode → Option Request
  | started request => some request
  | _ => none

/-- The event that the listeners are told. -/
def event? : Episode → Option Event
  | started request => some (.requestStarted request)
  | failed .. => none
  | answered request status headers elapsed => some (.responseReceived request status headers elapsed)
  | told event => some event

end Episode

/-- The occurrence is no part of an episode. -/
def Occurrence.IsAside : Occurrence → Prop
  | .heard .. | .sent _ | .answered .. => False
  | _ => True

/-- What is noted is a row of episodes, with asides between them. -/
inductive Narrated (listeners : List Listener) : List Episode → List Occurrence → Prop
  | nil : Narrated listeners [] []
  | aside {o : Occurrence} {episodes : List Episode} {os : List Occurrence} :
      o.IsAside → Narrated listeners episodes os → Narrated listeners episodes (o :: os)
  | episode {episode : Episode} {episodes : List Episode} {os : List Occurrence} :
      Narrated listeners episodes os → Narrated listeners (episode :: episodes) (episode.noted listeners ++ os)

/-- What is noted in writes is a row of episodes. -/
def Narrates (listeners : List Listener) (ws : List (Write (World ε))) (episodes : List Episode) : Prop :=
  Narrated listeners episodes (gainedIn World.past ws)

/-- The listeners that keep an event, and the event. -/
def hearing (listeners : List Listener) (event : Event) : List (String × Event) :=
  listeners.filterMap fun
    | .recorder name => some (name, event)
    | _ => none

/-- The event tells of an item that is handed over: of an element or of a failure. -/
def Event.reportsItem : Event → Bool
  | .bodyElement .. | .errorReceived .. => true
  | _ => false

/-- The events of items that the listeners are told. -/
def itemEvents (episodes : List Episode) : List Event :=
  (episodes.filterMap Episode.event?).filter Event.reportsItem

section Episodes

variable {listeners : List Listener} {episodes more : List Episode} {episode : Episode} {os os' : List Occurrence}
  {ws vs : List (Write (World ε))}

theorem Narrated.append (h : Narrated listeners episodes os) (h' : Narrated listeners more os') :
    Narrated listeners (episodes ++ more) (os ++ os') := by
  induction h with
  | nil => exact h'
  | aside haside _ ih => exact .aside haside ih
  | episode _ ih =>
    rw [List.append_assoc]
    exact .episode ih

theorem narrated_asides (h : ∀ o ∈ os, o.IsAside) : Narrated listeners [] os := by
  induction os with
  | nil => exact .nil
  | cons o os ih => exact .aside (h o List.mem_cons_self) (ih fun o ho => h o (List.mem_cons_of_mem _ ho))

theorem narrated_episode (listeners : List Listener) (episode : Episode) :
    Narrated listeners [episode] (episode.noted listeners) := by
  have hone : Narrated listeners [episode] (episode.noted listeners ++ []) := .episode .nil
  rwa [List.append_nil] at hone

theorem Narrates.append (h : Narrates listeners ws episodes) (h' : Narrates listeners vs more) :
    Narrates listeners (ws ++ vs) (episodes ++ more) := by
  unfold Narrates
  rw [gainedIn_append]
  exact Narrated.append h h'

@[simp] theorem itemEvents_append (episodes more : List Episode) :
    itemEvents (episodes ++ more) = itemEvents episodes ++ itemEvents more := by
  simp [itemEvents]

@[simp] theorem narrates_nil : Narrates listeners ([] : List (Write (World ε))) [] := .nil

theorem heard_of_told (listeners : List Listener) (event : Event) :
    (World.told listeners event).filterMap Occurrence.heard? = hearing listeners event := by
  induction listeners with
  | nil => rfl
  | cons listener listeners ih =>
    unfold World.told at ih ⊢
    rw [List.flatMap_cons, List.filterMap_append, ih]
    cases listener with
    | recorder name => rfl
    | silent => rfl
    | logger level => simp [World.heardBy, hearing, Occurrence.heard?, Function.comp_def]

theorem heard_of_noted (listeners : List Listener) (episode : Episode) :
    (episode.noted listeners).filterMap Occurrence.heard? = episode.event?.toList.flatMap (hearing listeners) := by
  cases episode with
  | started request => simp [Episode.noted, Episode.event?, heard_of_told, Occurrence.heard?]
  | failed request e => rfl
  | answered request status headers elapsed =>
    exact (heard_of_told listeners _).trans (List.append_nil _).symm
  | told event => exact (heard_of_told listeners event).trans (List.append_nil _).symm

/-- What the listeners keep is what they are told: the events in order, and each of them in the order of the
listeners. -/
theorem Narrated.heard (h : Narrated listeners episodes os) :
    os.filterMap Occurrence.heard? = (episodes.filterMap Episode.event?).flatMap (hearing listeners) := by
  induction h with
  | nil => rfl
  | @aside o _ _ haside _ ih =>
    have hnone : o.heard? = none := by
      cases o with
      | heard | sent | answered => exact haside.elim
      | _ => rfl
    rw [List.filterMap_cons_none hnone, ih]
  | @episode episode _ _ _ ih =>
    rw [List.filterMap_append, heard_of_noted, ih, List.filterMap_cons]
    cases episode.event? <;> simp

theorem sent_of_noted (listeners : List Listener) (episode : Episode) :
    (episode.noted listeners).filterMap Occurrence.sent? = episode.sent?.toList := by
  cases episode with
  | started request => simp [Episode.noted, Episode.sent?, sent?_told, Occurrence.sent?]
  | failed request e => rfl
  | answered request status headers elapsed => exact sent?_told listeners _
  | told event => exact sent?_told listeners event

/-- What is sent is what is announced. -/
theorem Narrated.sent (h : Narrated listeners episodes os) :
    os.filterMap Occurrence.sent? = episodes.filterMap Episode.sent? := by
  induction h with
  | nil => rfl
  | @aside o _ _ haside _ ih =>
    have hnone : o.sent? = none := by
      cases o with
      | heard | sent | answered => exact haside.elim
      | _ => rfl
    rw [List.filterMap_cons_none hnone, ih]
  | @episode episode _ _ _ ih =>
    rw [List.filterMap_append, sent_of_noted, ih, List.filterMap_cons]
    cases episode.sent? <;> rfl

end Episodes

/-! ## Asides -/

/-- Only asides are noted. -/
def Asides (s s' : World ε) : Prop := ∃ os : List Occurrence, (∀ o ∈ os, o.IsAside) ∧ s'.past = os.reverse ++ s.past

theorem asides_refl (s : World ε) : Asides s s := ⟨[], fun _ h => absurd h List.not_mem_nil, rfl⟩

theorem narrates_of_asides (listeners : List Listener) {ws : List (Write (World ε))}
    (h : ∀ w ∈ ws, Asides w.before w.after) : Narrates listeners ws [] := by
  refine narrated_asides fun o ho => ?_
  obtain ⟨w, hw, ho⟩ := List.mem_flatMap.1 ho
  obtain ⟨os, hos, hpast⟩ := h w hw
  rw [hpast, gained_append, List.reverse_reverse] at ho
  exact hos o ho

theorem Asides.narrates {x : Stage ε α} (hx : Obeys Asides x) {listeners : List Listener} {t t' : Instant}
    {s s' : World ε} {ws : List (Write (World ε))} {a : α} (h : Ends x t s ws a t' s') :
    Narrates listeners ws [] :=
  narrates_of_asides listeners (hx.writes h)

namespace Pipeline

/-- Collaborators have no access to the timeline. -/
theorem noting_asides : Noting Occurrence.IsAside (fun _ _ => True) (Asides : World ε → World ε → Prop) where
  note _ os hos := ⟨os, hos, rfl⟩
  work s _ _ := asides_refl s

theorem asides_log (line : TraceLine) : Obeys Asides (Stage.log line : Stage ε Unit) := noting_asides.one trivial

theorem asides_outside (work : Fiber (Outside ε) α) : Obeys Asides (Stage.outside work) :=
  noting_asides.outside (obeys_true work)

theorem asides_choose (look : Resolver ε) (service : String) (server : Option Server) :
    Obeys Asides (choose look service server) :=
  noting_asides.choose (fun _ => obeys_true _) service (fun _ => trivial) server

theorem asides_classify (exchange : Exchange ε) (call : Call) (response : Response) :
    Obeys Asides (classify exchange call response) :=
  noting_asides.classify (fun _ _ => obeys_true _) call response

theorem asides_acquire (key : String) : Obeys Asides (acquire key : Stage ε (Option Permit)) := by
  refine obeys_modifyGet fun t s => ⟨_, fun o ho => ?_, rfl⟩
  rcases List.mem_append.1 ho with ho | ho
  · obtain ⟨line, -, rfl⟩ := List.mem_map.1 ho
    trivial
  · obtain rfl := List.mem_singleton.1 ho
    split <;> trivial

theorem asides_report (permit : Permit) (verdict : Verdict) :
    Obeys Asides (report permit verdict : Stage ε Unit) := by
  refine obeys_modifyGet fun t s => ⟨_, fun o ho => ?_, rfl⟩
  rcases List.mem_append.1 ho with ho | ho
  · obtain ⟨line, -, rfl⟩ := List.mem_map.1 ho
    trivial
  · obtain rfl := List.mem_singleton.1 ho
    trivial

theorem asides_recover (fallback : Option (Fallback ε)) (call : Call) (cause : Error) :
    Obeys Asides (recover fallback call cause) :=
  noting_asides.recover (fun _ _ _ _ _ => obeys_true _) trivial trivial

theorem asides_conclude (fallback : Option (Fallback ε)) (call : Call) (permit : Permit) (o : Outcome) :
    Obeys Asides (conclude fallback call permit o) :=
  obeys_conclude (asides_report permit) (asides_recover fallback call) o

/-! ## Attempts -/

/-- One execution of the transport: its request is told right before it, and its response, if there is one, right
after it. -/
inductive Exchanged (transport : Transport ε) : List Episode → Prop
  /-- The execution is cut off while the transport waits. -/
  | unanswered {request : Request} {t t' : Instant} {s s' : Outside ε} {ws : List (Write (Outside ε))} {wait : Nat}
      {drop : Outside ε → Outside ε} {rest : Fiber (Outside ε) Outcome} :
      Goes (transport request) t s ws (.pause wait drop rest) t' s' → Exchanged transport [.started request]
  | failed {request : Request} {e : Error} {t t' : Instant} {s s' : Outside ε} {ws : List (Write (Outside ε))} :
      Ends (transport request) t s ws (.error e) t' s' →
      Exchanged transport [.started request, .failed request e]
  | answered {request : Request} {response : Response} {t t' : Instant} {s s' : Outside ε}
      {ws : List (Write (Outside ε))} : Ends (transport request) t s ws (.ok response) t' s' →
      Exchanged transport [.started request, .answered request response.status response.headers (t' - t)]

/-- Executions of the transport, one after the other. -/
inductive Exchanges (transport : Transport ε) : List Episode → Prop
  | nil : Exchanges transport []
  | cons {episodes more : List Episode} : Exchanged transport episodes → Exchanges transport more →
      Exchanges transport (episodes ++ more)

theorem Exchanged.exchanges {transport : Transport ε} {episodes : List Episode} (h : Exchanged transport episodes) :
    Exchanges transport episodes := by
  have hone := Exchanges.cons h .nil
  rwa [List.append_nil] at hone

theorem Exchanges.append {transport : Transport ε} {episodes more : List Episode} (h : Exchanges transport episodes)
    (h' : Exchanges transport more) : Exchanges transport (episodes ++ more) := by
  induction h with
  | nil => exact h'
  | cons hfirst _ ih =>
    rw [List.append_assoc]
    exact .cons hfirst ih

theorem Exchanges.itemEvents {transport : Transport ε} {episodes : List Episode} (h : Exchanges transport episodes) :
    itemEvents episodes = [] := by
  induction h with
  | nil => rfl
  | cons hexchanged _ ih =>
    rw [itemEvents_append, ih, List.append_nil]
    cases hexchanged <;> rfl

/-- What is narrated on the paths of a stage are executions of the transport. -/
def NarratesExchanges (listeners : List Listener) (transport : Transport ε) (x : Stage ε α) : Prop :=
  ∀ ⦃t s ws a t' s'⦄, Ends x t s ws a t' s' →
    ∃ episodes, Exchanges transport episodes ∧ Narrates listeners ws episodes

section Parts

variable {listeners : List Listener} {transport : Transport ε} {x : Stage ε α}

theorem narratesExchanges_of_asides (h : Obeys Asides x) : NarratesExchanges listeners transport x :=
  fun _ _ _ _ _ _ hends => ⟨[], .nil, Asides.narrates h hends⟩

theorem narratesExchanges_andThen {f : α → Stage ε β} (hx : NarratesExchanges listeners transport x)
    (hf : ∀ a, NarratesExchanges listeners transport (f a)) :
    NarratesExchanges listeners transport (x.andThen f) := by
  intro t s ws b t' s' h
  obtain ⟨us, a, t₁, s₁, vs, rfl, hfirst, hrest⟩ := (ends_andThen _ _).1 h
  obtain ⟨episodes, hexchanges, hnarrates⟩ := hx hfirst
  obtain ⟨more, hexchanges', hnarrates'⟩ := hf a hrest
  exact ⟨episodes ++ more, hexchanges.append hexchanges', hnarrates.append hnarrates'⟩

end Parts

section Attempts

variable {exchange : Exchange ε} {call : Call} {request : Request} {t t' : Instant} {s s' : World ε}
  {ws : List (Write (World ε))} {r : Outcome}

theorem narrates_of_note {listeners : List Listener} (episode : Episode) {u : Unit}
    (h : Ends (Stage.note (episode.noted listeners)) t s ws u t' s') : Narrates listeners ws [episode] := by
  obtain ⟨-, -, rfl⟩ := ends_note h
  unfold Narrates
  rw [gainedIn_cons, gainedIn_nil, List.append_nil, World.note, gained_append, List.reverse_reverse]
  exact narrated_episode listeners episode

/-- Two notes in a row are one. -/
theorem ends_note_note {os os' : List Occurrence} {a : α} {f : Unit → Stage ε α}
    (h : Ends ((Stage.note os).andThen fun _ => (Stage.note os').andThen f) t s ws a t' s') :
    ∃ us vs, ws = us ++ vs ∧ gainedIn World.past us = os ++ os' ∧ Ends (f ()) t ((s.note os).note os') vs a t' s' := by
  obtain ⟨us, _, t₁, s₁, vs, rfl, hfirst, hrest⟩ := (ends_andThen _ _).1 h
  obtain ⟨rfl, rfl, rfl⟩ := ends_note hfirst
  obtain ⟨us', _, t₂, s₂, vs', rfl, hsecond, hend⟩ := (ends_andThen _ _).1 hrest
  obtain ⟨rfl, rfl, rfl⟩ := ends_note hsecond
  exact ⟨_, vs', (List.append_assoc _ _ _).symm, by simp [World.note, gained_append], hend⟩

/-- A request that is sent is one execution of the transport. -/
theorem exchanged_of_send (h : Ends (send exchange request) t s ws r t' s') :
    ∃ episodes, Exchanged exchange.transport episodes ∧ Narrates exchange.listeners ws episodes := by
  obtain ⟨us, vs, rfl, hstarted, h₁⟩ := ends_note_note h
  have hfirst : Narrates exchange.listeners us [.started request] := by
    unfold Narrates
    rw [hstarted]
    exact narrated_episode exchange.listeners (.started request)
  obtain ⟨us₁, started, t₁, s₁, vs₁, rfl, hnow, h₂⟩ := (ends_andThen _ _).1 h₁
  obtain ⟨rfl, rfl, rfl, rfl⟩ := ends_now.1 hnow
  obtain ⟨us₂, result, t₂, s₂, vs₂, rfl, htransport, h₃⟩ := (ends_andThen _ _).1 h₂
  have hwork : Narrates exchange.listeners us₂ [] := Asides.narrates (asides_outside _) htransport
  have hpath := (ends_outside htransport).1
  cases result with
  | error e =>
    obtain ⟨us₃, _, t₃, s₃, vs₃, rfl, hnote, hend⟩ := (ends_andThen _ _).1 h₃
    obtain ⟨rfl, -, -, -⟩ := ends_done.1 hend
    have hfailed : Narrates exchange.listeners us₃ [.failed request e] := narrates_of_note _ hnote
    refine ⟨_, .failed hpath, ?_⟩
    rw [List.nil_append, List.append_nil]
    exact hfirst.append (hwork.append hfailed)
  | ok response =>
    obtain ⟨us₃, _, t₃, s₃, vs₃, rfl, hnote, h₄⟩ := (ends_andThen _ _).1 h₃
    obtain ⟨rfl, -, hws₃⟩ := ends_note hnote
    obtain ⟨us₄, ended, t₄, s₄, vs₄, rfl, hnow', h₅⟩ := (ends_andThen _ _).1 h₄
    obtain ⟨rfl, rfl, rfl, rfl⟩ := ends_now.1 hnow'
    obtain ⟨us₅, _, t₅, s₅, vs₅, rfl, htell, hend⟩ := (ends_andThen _ _).1 h₅
    obtain ⟨rfl, -, -, -⟩ := ends_done.1 hend
    obtain ⟨-, -, hws₅⟩ := ends_note htell
    have hanswered : Narrates exchange.listeners (us₃ ++ us₅)
        [.answered request response.status response.headers (t₄ - t₁)] := by
      have hnoted : gainedIn World.past (us₃ ++ us₅) =
          (Episode.answered request response.status response.headers (t₄ - t₁)).noted exchange.listeners := by
        rw [hws₃, hws₅]
        simp [World.note, gained_append, Episode.noted]
      unfold Narrates
      rw [hnoted]
      exact narrated_episode _ _
    refine ⟨_, .answered hpath, ?_⟩
    rw [List.nil_append, List.nil_append, List.append_nil]
    exact hfirst.append (hwork.append hanswered)

/-- A request that is still waited for has been told, and nothing else. -/
theorem exchanged_of_goes_send {wait : Nat} {drop : World ε → World ε} {rest : Stage ε Outcome}
    (h : Goes (send exchange request) t s ws (.pause wait drop rest) t' s') :
    ∃ episodes, Exchanged exchange.transport episodes ∧ Narrates exchange.listeners ws episodes := by
  obtain ⟨us, rfl, h₁⟩ := goes_note_andThen h
  obtain ⟨vs, rfl, h₂⟩ := goes_note_andThen h₁
  cases h₂ with | look h₃ =>
  rcases goes_andThen_pause (Stage.outside (exchange.transport request)) h₃ with ⟨rest', htransport⟩ |
    ⟨us', result, t₁, s₁, vs', -, -, h₄⟩
  · obtain ⟨drop', rest'', hpath, -, hframe⟩ := goes_zoom_pause (fun _ _ => rfl) _ htransport
    have hwork : gainedIn World.past vs = [] := gainedIn_of_kept fun w hw => by rw [hframe w hw]
    refine ⟨_, .unanswered hpath, ?_⟩
    unfold Narrates
    rw [gainedIn_cons, gainedIn_cons, hwork, List.append_nil, World.note, gained_append, World.note, gained_append,
      List.reverse_reverse]
    exact narrated_episode exchange.listeners (.started request)
  · -- after the transport nothing is waited for
    exfalso
    cases result with
    | error e =>
      obtain ⟨us₁, -, hdone⟩ := goes_note_andThen h₄
      cases hdone
    | ok response =>
      obtain ⟨us₁, -, hnow⟩ := goes_note_andThen h₄
      cases hnow with | look htell =>
      obtain ⟨us₂, -, hdone⟩ := goes_note_andThen htell
      cases hdone

/-- An attempt is at most one execution of the transport. -/
theorem exchanges_of_executing (exchange : Exchange ε) (call : Call) :
    NarratesExchanges exchange.listeners exchange.transport (executing exchange call) := by
  unfold executing
  split
  · exact narratesExchanges_of_asides (obeys_done _)
  · refine narratesExchanges_andThen (fun t s ws r t' s' hsend => ?_) fun o => narratesExchanges_of_asides ?_
    · obtain ⟨episodes, hexchanged, hnarrates⟩ := exchanged_of_send hsend
      exact ⟨episodes, hexchanged.exchanges, hnarrates⟩
    · cases o with
      | error e => exact obeys_done _
      | ok response => exact asides_classify _ _ _

/-- So is one that still waits. -/
theorem exchanges_of_goes_executing {wait : Nat} {drop : World ε → World ε} {rest : Stage ε Outcome}
    (h : Goes (executing exchange call) t s ws (.pause wait drop rest) t' s') :
    ∃ episodes, Exchanges exchange.transport episodes ∧ Narrates exchange.listeners ws episodes := by
  unfold executing at h
  split at h
  · cases h
  · rcases goes_andThen_pause _ h with ⟨rest', hsend⟩ | ⟨us, o, t₁, s₁, vs, rfl, hsend, hrest⟩
    · obtain ⟨episodes, hexchanged, hnarrates⟩ := exchanged_of_goes_send hsend
      exact ⟨episodes, hexchanged.exchanges, hnarrates⟩
    · obtain ⟨episodes, hexchanged, hnarrates⟩ := exchanged_of_send hsend
      refine ⟨episodes, hexchanged.exchanges, ?_⟩
      cases o with
      | error e => cases hrest
      | ok response =>
        have hafter := narrates_of_asides exchange.listeners
          ((asides_classify exchange call response).writes.of_goes hrest)
        have hall := hnarrates.append hafter
        rwa [List.append_nil] at hall

/-- A time limit that cuts an attempt off adds nothing. -/
theorem exchanges_of_limited (limit : Option Duration) (method : String) (call : Call) :
    NarratesExchanges exchange.listeners exchange.transport (limited limit method (executing exchange call)) := by
  intro t s ws r t' s' h
  cases limit with
  | none => exact exchanges_of_executing exchange call h
  | some limit =>
    obtain ⟨us, result, t₁, s₁, vs, rfl, hwithin, hend⟩ := (ends_andThen _ _).1 h
    have hnone : vs = [] := by
      cases result with
      | none => exact (ends_done.1 hend).1
      | some o => exact (ends_done.1 hend).1
    rw [hnone, List.append_nil]
    rcases ends_within _ hwithin with ⟨o, -, hinner, -⟩ |
      ⟨us', wait, drop, rest, t₂, s₂, last, -, hgoes, -, -, rfl, -, -⟩
    · exact exchanges_of_executing exchange call hinner
    · -- the limit comes while the attempt waits, and what is then dropped notes nothing
      have hdrop : (drop last).past = last.past :=
        (dropsKeep_executing (fun _ _ => rfl) exchange call).of_goes hgoes last
      obtain ⟨episodes, hexchanges, hnarrates⟩ := exchanges_of_goes_executing hgoes
      refine ⟨episodes, hexchanges, ?_⟩
      unfold Narrates
      rw [gainedIn_append, gainedIn_cons, gainedIn_nil, hdrop, gained_self, List.append_nil, List.append_nil]
      exact hnarrates

/-- Behind a breaker an attempt narrates the same. -/
theorem exchanges_of_guarding (exchange : Exchange ε) (key : String) (limit : Option Duration)
    (fallback : Option (Fallback ε)) (call : Call) : NarratesExchanges exchange.listeners exchange.transport
      (guarding key limit fallback (executing exchange) call) := by
  refine narratesExchanges_andThen (narratesExchanges_of_asides (asides_acquire key)) fun answer => ?_
  cases answer with
  | none => exact narratesExchanges_of_asides (obeys_andThen (asides_log _) fun _ => asides_recover _ _ _)
  | some permit =>
    refine narratesExchanges_andThen (fun t s ws r t' s' hattempt => ?_) fun o =>
      narratesExchanges_of_asides (asides_conclude _ _ _ _)
    exact exchanges_of_limited limit call.method call ((ends_protect _ _).1 hattempt)

end Attempts

/-! ## Balancing and retries -/

section Layers

variable {listeners : List Listener} {transport : Transport ε} {inner : Service ε}

theorem layering_exchanges :
    Layering (Asides : World ε → World ε → Prop) fun x => NarratesExchanges listeners transport x :=
  ⟨narratesExchanges_of_asides, narratesExchanges_andThen⟩

/-- Between the attempts at the instances nothing is told. -/
theorem exchanges_of_balancing (hinner : ∀ call, NarratesExchanges listeners transport (inner call))
    (config : BalancerConfig) (resolver : Option (Resolver ε)) (call : Call) :
    NarratesExchanges listeners transport (balancing config resolver inner call) :=
  layering_exchanges.balancing noting_asides (fun _ _ _ => obeys_true _) hinner (fun _ _ => trivial) (fun _ => trivial)
    config call

/-- One use of a stage inside retries, with what it narrates. -/
structure Iteration (listeners : List Listener) (transport : Transport ε) (work : Stage ε Outcome)
    (ws : List (Write (World ε))) (episodes : List Episode) (o : Outcome) : Prop where
  path : ∃ t s t' s', Ends work t s ws o t' s'
  exchanges : Exchanges transport episodes
  narrates : Narrates listeners ws episodes

/-- The iterations of a stage that is retried, from a number on, with what is narrated and what the last of them
comes to. -/
inductive Loops (listeners : List Listener) (transport : Transport ε) (work : Stage ε Outcome) (method : String) :
    Nat → List (Write (World ε)) → List Episode → Outcome → Prop
  | last {number : Nat} {us vs : List (Write (World ε))} {episodes : List Episode} {o r : Outcome} :
      Iteration listeners transport work us episodes o → (∀ w ∈ vs, Asides w.before w.after) →
      (r = o ∨ ∃ e, o = .error e ∧ r = .error (.exhausted number e)) →
      Loops listeners transport work method number (us ++ vs) episodes r
  /-- The listeners are told of the failure, and there is another iteration. -/
  | again {number : Nat} {us vs ws : List (Write (World ε))} {episodes more : List Episode} {e : Error}
      {delay : Duration} {r : Outcome} : Iteration listeners transport work us episodes (.error e) →
      Narrates listeners vs [.told (.retrying method number e delay)] →
      Loops listeners transport work method (number + 1) ws more r →
      Loops listeners transport work method number (us ++ (vs ++ ws))
        (episodes ++ .told (.retrying method number e delay) :: more) r
  /-- The counter has no room for another iteration. -/
  | overflow {number : Nat} : counterMax < number →
      Loops listeners transport work method number [] [] (.error .attemptOverflow)

variable {work : Stage ε Outcome} {method : String} {number : Nat} {episodes : List Episode} {t t' : Instant}
  {s s' : World ε} {ws : List (Write (World ε))} {r : Outcome}

theorem Loops.narrates (h : Loops listeners transport work method number ws episodes r) :
    Narrates listeners ws episodes := by
  induction h with
  | @last _ us vs episodes _ _ hiteration hasides =>
    have hall := hiteration.narrates.append (narrates_of_asides listeners hasides)
    rwa [List.append_nil] at hall
  | again hiteration hretry _ ih => exact hiteration.narrates.append (hretry.append ih)
  | overflow => exact narrates_nil

theorem Loops.itemEvents (h : Loops listeners transport work method number ws episodes r) :
    itemEvents episodes = [] := by
  induction h with
  | last hiteration => exact hiteration.exchanges.itemEvents
  | @again number _ _ _ episodes more e delay _ hiteration _ _ ih =>
    have hretry : ResilientClient.itemEvents [.told (.retrying method number e delay)] = [] := rfl
    rw [List.append_cons, itemEvents_append, itemEvents_append, hiteration.exchanges.itemEvents, hretry, ih]
    rfl
  | overflow => rfl

/-- One iteration that is all. -/
theorem Loops.once (hwork : NarratesExchanges listeners transport work) (h : Ends work t s ws r t' s')
    (method : String) (number : Nat) : ∃ episodes, Loops listeners transport work method number ws episodes r := by
  obtain ⟨episodes, hexchanges, hnarrates⟩ := hwork h
  have hone : Loops listeners transport work method number (ws ++ []) episodes r :=
    .last ⟨⟨t, s, t', s', h⟩, hexchanges, hnarrates⟩ (fun _ hw => absurd hw List.not_mem_nil) (.inl rfl)
  rw [List.append_nil] at hone
  exact ⟨episodes, hone⟩

/-- By induction on the attempts that the counter has room for: each failure that is retried is told once. -/
theorem loops_of_attemptsFrom (hwork : NarratesExchanges listeners transport work) (policy : RetryPolicy)
    (method : String) (room : Nat) : ∀ (number : Nat) {t : Instant} {s : World ε} {ws : List (Write (World ε))},
      room + number = counterMax + 1 →
      Ends (attemptsFrom policy listeners work method room number) t s ws r t' s' →
      ∃ episodes, Loops listeners transport work method number ws episodes r := by
  induction room with
  | zero =>
    intro number t s ws hroom h
    obtain ⟨rfl, rfl, -, -⟩ := ends_done.1 h
    exact ⟨[], .overflow (by omega)⟩
  | succ room ih =>
    intro number t s ws hroom h
    obtain ⟨us, o, t₁, s₁, vs, rfl, hround, hrest⟩ := (ends_andThen _ _).1 h
    obtain ⟨episodes, hexchanges, hnarrates⟩ := hwork hround
    have hiteration : Iteration listeners transport work us episodes o :=
      ⟨⟨t, s, t₁, s₁, hround⟩, hexchanges, hnarrates⟩
    have hnothing : ∀ w ∈ ([] : List (Write (World ε))), Asides w.before w.after :=
      fun _ hw => absurd hw List.not_mem_nil
    cases o with
    | ok response =>
      obtain ⟨rfl, rfl, -, -⟩ := ends_done.1 hrest
      exact ⟨episodes, .last hiteration hnothing (.inl rfl)⟩
    | error e =>
      dsimp only at hrest
      split at hrest
      · obtain ⟨rfl, rfl, -, -⟩ := ends_done.1 hrest
        exact ⟨episodes, .last hiteration hnothing (.inl rfl)⟩
      · obtain ⟨us', _, t₂, s₂, vs', rfl, hlog, hend⟩ := (ends_andThen _ _).1 hrest
        obtain ⟨rfl, rfl, -, -⟩ := ends_done.1 hend
        rw [List.append_nil]
        exact ⟨episodes, .last hiteration ((asides_log _).writes hlog) (.inr ⟨e, rfl, rfl⟩)⟩
      · obtain ⟨us₁, _, t₂, s₂, vs₁, rfl, hlog, hretry⟩ := (ends_andThen _ _).1 hrest
        obtain ⟨us₂, _, t₃, s₃, vs₂, rfl, htell, hdelay⟩ := (ends_andThen _ _).1 hretry
        obtain ⟨us₃, _, t₄, s₄, vs₃, rfl, hsleep, hnext⟩ := (ends_andThen _ _).1 hdelay
        obtain rfl := ends_sleep hsleep
        obtain ⟨more, hloops⟩ := ih (number + 1) (by omega) hnext
        have hlogged : Narrates listeners us₁ [] := Asides.narrates (asides_log _) hlog
        have htold := hlogged.append (narrates_of_note (.told _) htell)
        rw [List.nil_append, ← List.append_assoc us₁]
        exact ⟨_, .again hiteration htold hloops⟩

end Layers

end Pipeline

end ResilientClient
