/-
Heeding responses. The responses that a transport returns are kept on record, so that what follows one of
them can be told from what came before it (`AtEach`). A path heeds its responses if nothing loud follows one
that blames the request and whose preview is unbroken: no request is sent, no failure is reported to a
breaker and no fallback is called, and the path ends in a failure by which the request is blamed (`Heeds`).
-/
import ResilientClient.Pipeline.Call
import ResilientClient.Proofs.Pipeline.Preview
import ResilientClient.Proofs.Pipeline.Record

open ResilientClient.Fiber

namespace ResilientClient

variable {α δ : Type}

/-! ## Transports on record -/

/-- What the collaborators of a client keep, and the responses that its transport returned, the latest
first. -/
structure Tapped (δ : Type) where
  own : δ
  got : List Response

namespace Tapped

def ownOf (o : Outside (Tapped δ)) : Outside δ := ⟨o.opened, o.own.own⟩

def putOwn (p : Outside δ) (o : Outside (Tapped δ)) : Outside (Tapped δ) :=
  ⟨p.opened, ⟨p.own, o.own.got⟩⟩

/-- Work of a collaborator that is not on record. -/
def sheltered (work : Fiber (Outside δ) α) : Fiber (Outside (Tapped δ)) α := work.zoom ownOf putOwn

/-- Adds a response to the record. -/
def hear (response : Response) (o : Outside (Tapped δ)) : Outside (Tapped δ) :=
  { o with own := { o.own with got := response :: o.own.got } }

/-- A transport, on record. -/
def transport (transport : Transport δ) : Transport (Tapped δ) := fun request =>
  (sheltered (transport request)).andThen fun
    | .error e => .done (.error e)
    | .ok response => (Fiber.modify (hear response)).andThen fun _ => .done (.ok response)

def resolver (resolver : Resolver δ) : Resolver (Tapped δ) := fun service => sheltered (resolver service)

def fallback (fallback : Fallback δ) : Fallback (Tapped δ) :=
  fun method args cause => sheltered (fallback method args cause)

end Tapped

/-! ## What is heard and what is loud -/

/-- A write by which a response is returned. -/
def Hears (w : Write (World (Tapped δ))) (response : Response) : Prop :=
  w.after.outside.own.got = response :: w.before.outside.own.got

/-- No response is returned. -/
def Deaf (ws : List (Write (World (Tapped δ)))) : Prop :=
  ∀ w ∈ ws, w.after.outside.own.got = w.before.outside.own.got

/-- An attempt, a failure of the service, or a call to a fallback. -/
def Occurrence.isLoud : Occurrence → Bool
  | .sent _ | .reported _ .failure | .recovered .. => true
  | _ => false

/-- Nothing loud happens. -/
def Hushed (ws : List (Write (World (Tapped δ)))) : Prop :=
  ∀ o ∈ gainedIn World.past ws, o.isLoud = false

/-- A failure by which the request is blamed. -/
def Blamed (r : Except Error α) : Prop := ∃ e, r = .error e ∧ e.isClientRequestError = true

theorem not_blamed_ok {a : α} : ¬ Blamed (.ok a) := by
  rintro ⟨e, he, -⟩
  cases he

theorem blamed_error_iff {e : Error} :
    Blamed (.error e : Except Error α) ↔ e.isClientRequestError = true := by
  constructor
  · rintro ⟨e', he, hblamed⟩
    cases he
    exact hblamed
  · exact fun hblamed => ⟨e, rfl, hblamed⟩

/-- What holds of each response that is returned, and of what follows it. -/
def AtEach (Q : Response → List (Write (World (Tapped δ))) → Prop) (ws : List (Write (World (Tapped δ)))) :
    Prop :=
  ∀ before w after response, ws = before ++ w :: after → Hears w response → Q response after

/-- Once a response is returned that blames the request, with an unbroken preview, nothing loud happens any
more, and the end is a failure by which the request is blamed. -/
def Heeds (limit : Nat) (ws : List (Write (World (Tapped δ)))) (r : Except Error α) : Prop :=
  AtEach (fun response after => response.status.BlamesRequest → response.body.Unbroken limit →
    Hushed after ∧ Blamed r) ws

section Writes

variable {limit : Nat} {w : Write (World (Tapped δ))} {us vs ws : List (Write (World (Tapped δ)))}
  {r : Except Error α} {t t' : Instant} {s s' : World (Tapped δ)}

theorem deaf_nil : Deaf ([] : List (Write (World (Tapped δ)))) := fun _ h => absurd h List.not_mem_nil

theorem Deaf.append (h : Deaf us) (h' : Deaf vs) : Deaf (us ++ vs) := by
  intro w hw
  rcases List.mem_append.1 hw with hw | hw
  · exact h w hw
  · exact h' w hw

theorem Hushed.append (h : Hushed us) (h' : Hushed vs) : Hushed (us ++ vs) := by
  intro o ho
  rw [gainedIn_append] at ho
  rcases List.mem_append.1 ho with ho | ho
  · exact h o ho
  · exact h' o ho

/-- Notes are heard by nobody, and they are as loud as what is noted. -/
theorem deaf_note {os : List Occurrence} {u : Unit} (h : Ends (Stage.note os) t s ws u t' s') :
    Deaf ws ∧ ((∀ o ∈ os, o.isLoud = false) → Hushed ws) := by
  obtain ⟨-, -, rfl⟩ := ends_note h
  constructor
  · intro w hw
    obtain rfl := List.mem_singleton.1 hw
    rfl
  · intro hos o ho
    refine hos o ?_
    simpa [World.note, gained_append] using ho

/-- Listeners that are told something are neither attempts nor failures nor fallbacks. -/
theorem isLoud_told {listeners : List Listener} {event : Event} :
    ∀ o ∈ World.told listeners event, o.isLoud = false := by
  intro o ho
  obtain ⟨listener, -, ho⟩ := List.mem_flatMap.1 ho
  cases listener with
  | recorder name => obtain rfl := List.mem_singleton.1 ho; rfl
  | silent => cases ho
  | logger level =>
    obtain ⟨line, -, rfl⟩ := List.mem_map.1 ho
    rfl

theorem quiet_log {line : TraceLine} {u : Unit} (h : Ends (Stage.log line) t s ws u t' s') :
    Deaf ws ∧ Hushed ws := by
  obtain ⟨hdeaf, hhushed⟩ := deaf_note h
  refine ⟨hdeaf, hhushed fun o ho => ?_⟩
  obtain rfl := List.mem_singleton.1 ho
  rfl

theorem quiet_tell {listeners : List Listener} {event : Event} {u : Unit}
    (h : Ends (Stage.tell listeners event) t s ws u t' s') : Deaf ws ∧ Hushed ws := by
  obtain ⟨hdeaf, hhushed⟩ := deaf_note h
  exact ⟨hdeaf, hhushed isLoud_told⟩

/-- Work that is not on record is not heard. -/
theorem deaf_of_frame
    (h : ∀ v ∈ ws.map (Write.map World.outside), v.after = Tapped.putOwn (Tapped.ownOf v.after) v.before) :
    Deaf ws := by
  intro w hw
  have hown := h _ (List.mem_map_of_mem hw)
  exact congrArg (fun o => o.own.got) hown

theorem deaf_sheltered {work : Fiber (Outside δ) α} {a : α}
    (h : Ends (Stage.outside (Tapped.sheltered work)) t s ws a t' s') : Deaf ws :=
  deaf_of_frame (ends_zoom (fun _ _ => rfl) _ (ends_outside h).1).2

/-! ## Heeding -/

section AtEach

variable {Q : Response → List (Write (World (Tapped δ))) → Prop}

theorem atEach_nil : AtEach Q [] := by
  intro before w after response h
  simp at h

theorem atEach_cons :
    AtEach Q (w :: ws) ↔ (∀ response, Hears w response → Q response ws) ∧ AtEach Q ws := by
  constructor
  · intro h
    refine ⟨fun response => h [] w ws response rfl, fun before w' after response hws => ?_⟩
    exact h (w :: before) w' after response (congrArg (w :: ·) hws)
  · rintro ⟨hfirst, hrest⟩ before w' after response hws
    cases before with
    | nil =>
      obtain ⟨rfl, rfl⟩ := List.cons.inj hws
      exact hfirst response
    | cons b before =>
      obtain ⟨-, hws⟩ := List.cons.inj hws
      exact hrest before w' after response hws

theorem AtEach.deaf_append (hus : Deaf us) (h : AtEach Q vs) : AtEach Q (us ++ vs) := by
  induction us with
  | nil => exact h
  | cons w us ih =>
    refine atEach_cons.2 ⟨fun response hw => ?_, ih fun w hw => hus w (List.mem_cons_of_mem _ hw)⟩
    -- a response is one more on record
    rw [Hears, hus w List.mem_cons_self] at hw
    exact absurd hw.symm (List.cons_ne_self _ _)

theorem atEach_of_deaf (h : Deaf ws) : AtEach Q ws := by
  rw [← List.append_nil ws]
  exact atEach_nil.deaf_append h

/-- A path on which one response is returned. -/
theorem atEach_of_one (hus : Deaf us) {response : Response} (hw : Hears w response) (hvs : Deaf vs)
    (h : Q response vs) : AtEach Q (us ++ w :: vs) := by
  refine AtEach.deaf_append hus (atEach_cons.2 ⟨fun response' hw' => ?_, atEach_of_deaf hvs⟩)
  obtain ⟨rfl, -⟩ := List.cons.inj (hw'.symm.trans hw)
  exact h

end AtEach

/-- What comes after a part that heeds its responses, if it does nothing loud once the request is blamed. -/
theorem Heeds.append {β : Type} {o : Except Error β} (h : Heeds limit us o)
    (hblamed : Blamed o → Hushed vs ∧ Blamed r) (h' : Heeds limit vs r) : Heeds limit (us ++ vs) r := by
  induction us with
  | nil => exact h'
  | cons w us ih =>
    obtain ⟨hfirst, hrest⟩ := atEach_cons.1 h
    refine atEach_cons.2 ⟨fun response hw hstatus hbody => ?_, ih hrest⟩
    obtain ⟨hhushed, ho⟩ := hfirst response hw hstatus hbody
    exact ⟨hhushed.append (hblamed ho).1, (hblamed ho).2⟩

/-- What comes after a part that did not end in blame. -/
theorem Heeds.append_of_unblamed {β : Type} {o : Except Error β} (h : Heeds limit us o) (ho : ¬ Blamed o)
    (h' : Heeds limit vs r) : Heeds limit (us ++ vs) r :=
  h.append (fun hblamed => absurd hblamed ho) h'

end Writes

end ResilientClient
