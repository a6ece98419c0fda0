/-
Isolation of methods. The methods of a client share a registry, each with a breaker under its own key. Here the life
of the breaker of one method is read off from what tasks write: what is done with it and when, its state afterwards,
and what is noted of it. It is that of a breaker with which nothing else is done (`lives_alone`), and only
invocations of its own method do anything with it, so whatever happens on the other methods changes nothing about it
(`methods_isolated`).
-/
import ResilientClient.Proofs.Breaker.Keys
import ResilientClient.Proofs.Client.Courses
import ResilientClient.Proofs.Client.Invocation
import ResilientClient.Proofs.Pipeline.Holding

open ResilientClient.Fiber ResilientClient.Pipeline

namespace ResilientClient

variable {ε α β γ : Type}

/-! ## The life of a breaker -/

/-- What a task does with a breaker. -/
inductive Touch where
  /-- It asks for a call. -/
  | ask
  /-- Its call is reported. -/
  | report (verdict : Verdict)
  /-- Its call is dropped. -/
  | drop
deriving DecidableEq, Repr

/-- What the task of a number does at an instant. -/
structure Touched where
  number : Nat
  time : Instant
  touch : Touch
deriving DecidableEq, Repr

/-- A moment in the life of a breaker: what is done with it, its state afterwards, and what is noted. -/
structure Moment where
  touched : Touched
  breaker : Option Breaker
  entries : List Entry
deriving DecidableEq, Repr

/-- What a write notes of the breaker of a key. -/
def entriesOf (key : String) (w : Write (World ε)) : List Entry :=
  (breakerEntries w).filter fun entry => entry.key == key

/-- What a write does with the breaker of a key: the entry says so, and without an entry it changes only because a
call is dropped. -/
def touch? (key : String) (w : Write (World ε)) : Option Touch :=
  match entriesOf key w with
  | .reported _ verdict :: _ => some (.report verdict)
  | _ :: _ => some .ask
  | [] => if w.after.breakers.get? key = w.before.breakers.get? key then none else some .drop

/-- The life of the breaker of a key in writes of tasks. -/
def life (key : String) (ws : List (Nat × Write (World ε))) : List Moment :=
  ws.filterMap fun entry => (touch? key entry.2).map fun touch =>
    ⟨⟨entry.1, entry.2.time, touch⟩, entry.2.after.breakers.get? key, entriesOf key entry.2⟩

/-- What is done with the breaker of a key. -/
def touches (key : String) (ws : List (Nat × Write (World ε))) : List Touched := (life key ws).map Moment.touched

/-- What a task notes of breakers. -/
def entriesBy (number : Nat) (ws : List (Nat × Write (World ε))) : List Entry :=
  (ws.filter fun entry => entry.1 == number).flatMap fun entry => breakerEntries entry.2

/-! ## A breaker alone -/

/-- A breaker that nothing else is done with, and what is known of the last call that each task has been admitted
with: whether it is a trial. -/
structure Alone where
  config : BreakerConfig
  breaker : Option Breaker
  trial : Nat → Bool

namespace Alone

/-- The breaker after a touch, and what is noted of it. -/
def next (key : String) (a : Alone) (touched : Touched) : Alone × List Entry :=
  match touched.touch with
  | .ask =>
    -- as in a registry, a breaker is created when it is asked for first
    let (answer, after, _) := (a.breaker.getD (.create a.config touched.time)).acquire touched.time
    let trial := (answer.map fun trial => Function.update a.trial touched.number trial).getD a.trial
    ({ a with breaker := some after, trial }, [.ofAnswer key (answer.map fun trial => ⟨key, trial⟩)])
  | .report verdict =>
    let trial := a.trial touched.number
    ({ a with breaker := a.breaker.map fun b => (b.report touched.time trial verdict).1 },
      [.reported ⟨key, trial⟩ verdict])
  | .drop =>
    let trial := a.trial touched.number
    ({ a with breaker := a.breaker.map fun b => if trial then b.releaseTrial else b }, [])

/-- The breaker after touches in order. -/
def after (key : String) (a : Alone) (touched : List Touched) : Alone :=
  touched.foldl (fun a touched => (a.next key touched).1) a

/-- The life of the breaker under touches in order. -/
def life (key : String) : Alone → List Touched → List Moment
  | _, [] => []
  | a, touched :: later =>
    let (next, entries) := a.next key touched
    ⟨touched, next.breaker, entries⟩ :: life key next later

/-- Nobody has been admitted yet. -/
def start (config : BreakerConfig) (breaker : Option Breaker) : Alone := ⟨config, breaker, fun _ => false⟩

variable {key : String} {a : Alone} {touched : Touched}

theorem after_concat (key : String) (a : Alone) (before : List Touched) (touched : Touched) :
    a.after key (before ++ [touched]) = ((a.after key before).next key touched).1 := List.foldl_concat ..

theorem life_concat (key : String) (a : Alone) (before : List Touched) (touched : Touched) :
    life key a (before ++ [touched]) = life key a before ++
      [⟨touched, ((a.after key before).next key touched).1.breaker, ((a.after key before).next key touched).2⟩] := by
  induction before generalizing a with
  | nil => rfl
  | cons first before ih => exact congrArg _ (ih _)

/-- A touch says nothing about the calls of other tasks. -/
theorem next_trial_of_ne {number : Nat} (h : number ≠ touched.number) :
    (a.next key touched).1.trial number = a.trial number := by
  obtain ⟨other, time, touch⟩ := touched
  cases touch with
  | ask =>
    simp only [next]
    cases ((a.breaker.getD (.create a.config time)).acquire time).1 with
    | none => rfl
    | some trial => exact Function.update_of_ne h _ _
  | report | drop => rfl

/-- The breaker of the key is in the state of this one. -/
structure Stands (a : Alone) (key : String) (s : World ε) : Prop where
  config : s.breakers.config = a.config
  breaker : s.breakers.get? key = a.breaker

/-- What is known of the permit that a task holds, if it is one of this breaker. -/
def Recalls (a : Alone) (key : String) (number : Nat) (held : Option Permit) : Prop :=
  ∀ permit, held = some permit → permit.key = key → a.trial number = permit.trial

end Alone

/-! ## Writes one by one -/

section Writes

variable {key other : String} {w : Write (World ε)} {e : Entry} {holding holding' : Holding} {a : Alone} {number : Nat}

theorem Entry.key_ofAnswer (r : BreakerRegistry) (key : String) (t : Instant) :
    (Entry.ofAnswer key (r.acquire key t).1).key = key := by
  rw [BreakerRegistry.acquire_fst]
  cases (((r.get? key).getD (.create r.config t)).acquire t).1 <;> rfl

theorem entriesOf_eq_nil (h : breakerEntries w = []) : entriesOf key w = [] := by
  unfold entriesOf
  rw [h]
  rfl

theorem entriesOf_own (h : breakerEntries w = [e]) (hkey : e.key = key) : entriesOf key w = [e] := by
  unfold entriesOf
  rw [h]
  simp [hkey]

theorem entriesOf_other (h : breakerEntries w = [e]) (hkey : e.key ≠ key) : entriesOf key w = [] := by
  unfold entriesOf
  rw [h]
  simp [hkey]

theorem touch?_kept (hentries : entriesOf key w = [])
    (hkept : w.after.breakers.get? key = w.before.breakers.get? key) : touch? key w = none := by
  unfold touch?
  rw [hentries]
  exact if_pos hkept

theorem of_touch?_drop (h : touch? key w = some .drop) :
    entriesOf key w = [] ∧ w.after.breakers.get? key ≠ w.before.breakers.get? key := by
  unfold touch? at h
  split at h
  · cases h
  · cases h
  · rename_i hentries
    split at h
    · cases h
    · rename_i hchanged
      exact ⟨hentries, hchanged⟩

/-- What a write does with the breaker of a key, beside what is done with the breaker alone: nothing, or the task
may use the key and both come to the same. -/
inductive Shows (key : String) (a : Alone) (number : Nat) (keys : String → Prop) (w : Write (World ε))
    (held : Option Permit) : Prop
  | aside : touch? key w = none → a.Stands key w.after → a.Recalls key number held → Shows key a number keys w held
  | touched {touch : Touch} : touch? key w = some touch → keys key →
      entriesOf key w = (a.next key ⟨number, w.time, touch⟩).2 →
      (a.next key ⟨number, w.time, touch⟩).1.Stands key w.after →
      (a.next key ⟨number, w.time, touch⟩).1.Recalls key number held → Shows key a number keys w held

section Own

variable {keys : String → Prop} {held : Option Permit} {permit : Permit} {verdict : Verdict}

/-- With another key the breaker stays as it is. -/
theorem shows_other (hne : other ≠ key) (huses : w.before.breakers.Uses other w.after.breakers)
    (hconfig : w.after.breakers.config = w.before.breakers.config) (hentries : entriesOf key w = [])
    (hstands : a.Stands key w.before) (hrecalls : a.Recalls key number held) : Shows key a number keys w held :=
  have hkept := huses.get?_other (Ne.symm hne)
  .aside (touch?_kept hentries hkept) ⟨hconfig.trans hstands.config, hkept.trans hstands.breaker⟩ hrecalls

theorem shows_asked (hkey : keys key) (hafter : w.after.breakers = (w.before.breakers.acquire key w.time).2.1)
    (hentry : breakerEntries w = [.ofAnswer key (w.before.breakers.acquire key w.time).1])
    (hstands : a.Stands key w.before) :
    Shows key a number keys w (w.before.breakers.acquire key w.time).1 := by
  obtain ⟨hconfig, hbreaker⟩ := hstands
  have hentries := entriesOf_own hentry (Entry.key_ofAnswer _ _ _)
  have hanswer := w.before.breakers.acquire_fst key w.time
  have htouch : touch? key w = some .ask := by
    unfold touch?
    rw [hentries]
    cases (w.before.breakers.acquire key w.time).1 <;> rfl
  refine .touched htouch hkey ?_ ⟨?_, ?_⟩ ?_
  · rw [hentries, hanswer, hbreaker, hconfig]
    rfl
  · rw [hafter, BreakerRegistry.config_acquire]
    exact hconfig
  · rw [hafter, BreakerRegistry.get?_acquire, hbreaker, hconfig]
    rfl
  · intro permit hpermit _
    rw [hanswer, hbreaker, hconfig] at hpermit
    obtain ⟨trial, htrial, rfl⟩ := Option.map_eq_some_iff.1 hpermit
    simp only [Alone.next, htrial]
    exact Function.update_self ..

theorem shows_reported (hkey : keys permit.key)
    (hafter : w.after.breakers = (w.before.breakers.report permit w.time verdict).1)
    (hentry : breakerEntries w = [.reported permit verdict]) (hstands : a.Stands permit.key w.before)
    (htrial : a.trial number = permit.trial) : Shows permit.key a number keys w none := by
  obtain ⟨hconfig, hbreaker⟩ := hstands
  have hentries : entriesOf permit.key w = [.reported permit verdict] := entriesOf_own hentry rfl
  have htouch : touch? permit.key w = some (.report verdict) := by
    unfold touch?
    rw [hentries]
  refine .touched htouch hkey ?_ ⟨?_, ?_⟩ fun _ hnone => nomatch hnone
  · rw [hentries]
    simp only [Alone.next, htrial]
  · rw [hafter, BreakerRegistry.config_report]
    exact hconfig
  · rw [hafter, BreakerRegistry.get?_report, hbreaker]
    simp only [Alone.next, htrial]

/-- A drop that changes nothing is not seen. -/
theorem shows_dropped (hkey : keys permit.key) (hafter : w.after.breakers = w.before.breakers.release permit)
    (hentry : breakerEntries w = []) (hstands : a.Stands permit.key w.before)
    (hrecalls : a.Recalls permit.key number (some permit)) : Shows permit.key a number keys w (some permit) := by
  obtain ⟨hconfig, hbreaker⟩ := hstands
  have hentries : entriesOf permit.key w = [] := entriesOf_eq_nil hentry
  have hconfig' : w.after.breakers.config = a.config := by
    rw [hafter, BreakerRegistry.config_release]
    exact hconfig
  by_cases hsame : w.after.breakers.get? permit.key = w.before.breakers.get? permit.key
  · exact .aside (touch?_kept hentries hsame) ⟨hconfig', hsame.trans hbreaker⟩ hrecalls
  · have htouch : touch? permit.key w = some .drop := by
      unfold touch?
      rw [hentries]
      exact if_neg hsame
    refine .touched htouch hkey hentries ⟨hconfig', ?_⟩ hrecalls
    rw [hafter, BreakerRegistry.get?_release, hbreaker]
    simp only [Alone.next, hrecalls permit rfl rfl]

end Own

theorem Holds.shows (h : Holds holding w holding') (hstands : a.Stands key w.before)
    (hrecalls : a.Recalls key number holding.permit) : Shows key a number holding.keys w holding'.permit := by
  cases h with
  | keeps hkept =>
    have hsame : w.after.breakers.get? key = w.before.breakers.get? key := by rw [hkept.breakers]
    refine .aside (touch?_kept (entriesOf_eq_nil hkept.entries) hsame) ⟨?_, hsame.trans hstands.breaker⟩ hrecalls
    rw [hkept.breakers, hstands.config]
  | @asks _ k _ hkey hafter hentry =>
    by_cases hk : k = key
    · subst hk
      exact shows_asked hkey hafter hentry hstands
    · have hentries := entriesOf_other hentry fun h => hk ((Entry.key_ofAnswer _ _ _).symm.trans h)
      refine shows_other hk (hafter ▸ .asked w.time) (by rw [hafter]; simp) hentries hstands
        fun permit hpermit hown => ?_
      -- a permit of another key says nothing about this breaker
      rw [BreakerRegistry.acquire_fst] at hpermit
      obtain ⟨trial, -, rfl⟩ := Option.map_eq_some_iff.1 hpermit
      exact absurd hown hk
  | @reports keys permit verdict _ hkey hafter hentry =>
    by_cases hk : permit.key = key
    · subst hk
      exact shows_reported hkey hafter hentry hstands (hrecalls permit rfl rfl)
    · exact shows_other hk (hafter ▸ .reported permit.trial w.time verdict) (by rw [hafter]; simp)
        (entriesOf_other hentry hk) hstands fun _ hnone => nomatch hnone
  | @drops keys permit _ hkey hafter hentry =>
    by_cases hk : permit.key = key
    · subst hk
      exact shows_dropped hkey hafter hentry hstands hrecalls
    · exact shows_other hk (hafter ▸ .released permit.trial) (by rw [hafter]; simp) (entriesOf_eq_nil hentry) hstands
        hrecalls

/-- A silent change of a breaker is that a task drops the call that it holds the permit of. -/
theorem Holds.dropped (h : Holds holding w holding') (hdrop : touch? key w = some .drop) :
    ∃ permit, holding.permit = some permit ∧ permit.key = key ∧
      w.after.breakers = w.before.breakers.release permit := by
  obtain ⟨hentries, hchanged⟩ := of_touch?_drop hdrop
  cases h with
  | keeps hkept => exact absurd (by rw [hkept.breakers]) hchanged
  | @asks _ k _ hkey hafter hentry =>
    by_cases hk : k = key
    · subst hk
      cases hentries.symm.trans (entriesOf_own hentry (Entry.key_ofAnswer _ _ _))
    · have huses : w.before.breakers.Uses k w.after.breakers := hafter ▸ .asked w.time
      exact absurd (huses.get?_other (Ne.symm hk)) hchanged
  | @reports keys permit verdict _ hkey hafter hentry =>
    by_cases hk : permit.key = key
    · cases hentries.symm.trans (entriesOf_own hentry hk)
    · have huses : w.before.breakers.Uses permit.key w.after.breakers := hafter ▸ .reported permit.trial w.time verdict
      exact absurd (huses.get?_other (Ne.symm hk)) hchanged
  | @drops keys permit _ hkey hafter hentry =>
    by_cases hk : permit.key = key
    · exact ⟨permit, rfl, hk, hafter⟩
    · have huses : w.before.breakers.Uses permit.key w.after.breakers := hafter ▸ .released permit.trial
      exact absurd (huses.get?_other (Ne.symm hk)) hchanged

end Writes

/-! ## Writes of a crowd -/

section Chains

variable {key : String} {modes now : Nat → Holding} {s s' : World ε} {ws : List (Nat × Write (World ε))}
  {number : Nat} {permit : Permit}

theorem life_concat (key : String) (ws : List (Nat × Write (World ε))) (entry : Nat × Write (World ε)) :
    life key (ws ++ [entry]) = life key ws ++ life key [entry] := List.filterMap_append

theorem life_singleton (key : String) (number : Nat) (w : Write (World ε)) : life key [(number, w)] =
    ((touch? key w).map fun touch =>
      ⟨⟨number, w.time, touch⟩, w.after.breakers.get? key, entriesOf key w⟩).toList := by
  unfold life
  cases h : touch? key w <;> simp [h]

/-- The tasks keep their keys. -/
theorem keys_of_chain (h : Chain holdings modes s ws now s') :
    ∀ number, (now number).keys = (modes number).keys := by
  induction h with
  | nil => exact fun _ => rfl
  | @snoc ws now s₁ s₂ number t holding hchain _ hstep ih =>
    have hkeys : holding.keys = (now number).keys := Holds.keys_eq hstep
    exact (Function.forall_update_iff now fun i holding => holding.keys = (modes i).keys).2
      ⟨hkeys.trans (ih number), fun other _ => ih other⟩

/-- By induction on the writes: the breaker of a key lives as it would alone, and it is touched by tasks only that may
use the key. -/
theorem lives_alone (key : String) (h : Chain holdings modes s ws now s')
    (hnone : ∀ number, (modes number).permit = none) :
    let a := Alone.start s.breakers.config (s.breakers.get? key)
    life key ws = a.life key (touches key ws) ∧ (a.after key (touches key ws)).Stands key s' ∧
      (∀ number, (a.after key (touches key ws)).Recalls key number (now number).permit) ∧
      ∀ moment ∈ life key ws, (modes moment.touched.number).keys key := by
  intro a
  induction h with
  | nil =>
    refine ⟨rfl, ⟨rfl, rfl⟩, fun number permit hpermit => ?_, fun _ hmem => absurd hmem List.not_mem_nil⟩
    cases (hnone number).symm.trans hpermit
  | @snoc ws now s₁ s₂ number t holding hchain _ hstep ih =>
    obtain ⟨hlife, hstands, hrecalls, hkeys⟩ := ih
    have hshows := Holds.shows hstep hstands (hrecalls number)
    cases hshows with
    | aside htouch hstands' hrecalls' =>
      have hsame : life key (ws ++ [(number, ⟨t, s₁, s₂⟩)]) = life key ws := by
        rw [life_concat, life_singleton, htouch]
        exact List.append_nil _
      have htouches : touches key (ws ++ [(number, ⟨t, s₁, s₂⟩)]) = touches key ws :=
        congrArg (List.map Moment.touched) hsame
      rw [hsame, htouches]
      refine ⟨hlife, hstands', ?_, hkeys⟩
      exact (Function.forall_update_iff now fun i holding => Alone.Recalls _ key i holding.permit).2
        ⟨hrecalls', fun other _ => hrecalls other⟩
    | @touched touch htouch hkey hentries hstands' hrecalls' =>
      have hmore : life key (ws ++ [(number, ⟨t, s₁, s₂⟩)]) = life key ws ++
          [⟨⟨number, t, touch⟩, s₂.breakers.get? key, entriesOf key ⟨t, s₁, s₂⟩⟩] := by
        rw [life_concat, life_singleton, htouch]
        rfl
      have htouches : touches key (ws ++ [(number, ⟨t, s₁, s₂⟩)]) = touches key ws ++ [⟨number, t, touch⟩] := by
        unfold touches
        rw [hmore, List.map_append]
        rfl
      rw [hmore, htouches, Alone.life_concat, Alone.after_concat, ← hlife, hentries]
      refine ⟨?_, hstands', ?_, fun moment hmem => ?_⟩
      · rw [hstands'.breaker]
      · refine (Function.forall_update_iff now fun i holding => Alone.Recalls _ key i holding.permit).2
          ⟨hrecalls', fun other hne permit hpermit hown => ?_⟩
        -- what is known of the others is not touched
        rw [Alone.next_trial_of_ne hne]
        exact hrecalls other permit hpermit hown
      · rcases List.mem_append.1 hmem with hmem | hmem
        · exact hkeys moment hmem
        · obtain rfl := List.mem_singleton.1 hmem
          rwa [← keys_of_chain hchain]

/-- The permit that a task holds is that of the call that it has been admitted with last, and has not reported. -/
theorem admitted_of_held (h : Chain holdings modes s ws now s') (hnone : ∀ number, (modes number).permit = none)
    (number : Nat) : ∀ permit, (now number).permit = some permit →
      (entriesBy number ws).getLast? = some (.admitted permit) := by
  have hconcat : ∀ (ws : List (Nat × Write (World ε))) other w, entriesBy number (ws ++ [(other, w)]) =
      entriesBy number ws ++ if other = number then breakerEntries w else [] := by
    intro ws other w
    unfold entriesBy
    by_cases hn : other = number <;> simp [List.filter_append, hn]
  induction h with
  | nil =>
    intro permit hpermit
    cases (hnone number).symm.trans hpermit
  | @snoc ws now s₁ s₂ other t holding hchain _ hstep ih =>
    intro permit hpermit
    rw [hconcat]
    by_cases hn : number = other
    · subst hn
      rw [Function.update_self] at hpermit
      rw [if_pos rfl]
      have hholds : Holds (now number) ⟨t, s₁, s₂⟩ holding := hstep
      generalize hnow : now number = held at hholds
      cases hholds with
      | keeps hkept =>
        have hentries : breakerEntries (⟨t, s₁, s₂⟩ : Write (World ε)) = [] := hkept.entries
        rw [hentries, List.append_nil]
        exact ih permit (hnow ▸ hpermit)
      | asks _ _ hentry =>
        rw [hentry, List.getLast?_concat]
        exact congrArg some (congrArg (Entry.ofAnswer _) hpermit)
      | reports => cases hpermit
      | drops _ _ hentry =>
        rw [hentry, List.append_nil]
        exact ih permit (hnow ▸ hpermit)
    · rw [Function.update_of_ne hn] at hpermit
      rw [if_neg (Ne.symm hn), List.append_nil]
      exact ih permit hpermit

end Chains

/-! ## Programs of a client -/

/-- What is done with a client: methods of a kind are invoked, and collaborators work. -/
inductive Client.Calls (client : Client ε) (uses : Method ε → Prop) : {α : Type} → Stage ε α → Prop
  | invocation {m : Method ε} {args : List Argument} {α : Type} {x : Stage ε α} {failed : Error → α} :
      m ∈ client.methods → uses m → m.Invokes args x failed → Calls client uses x
  | outside {α : Type} (work : Fiber (Outside ε) α) : Calls client uses (Stage.outside work)

/-- Each task is a program with a client that invokes its own methods. -/
def Client.Runs (client : Client ε) (uses : Nat → Method ε → Prop) (tasks : List (Task (World ε) β)) : Prop :=
  ∀ number task, tasks[number]? = some task → Program (fun x => client.Calls (uses number) x) task.rest

namespace Builder

variable {b : Builder ε} {around : Surroundings ε} {rule : HeaderRule} {keys : String → Prop}

theorem uses_dispatch (endpoint : Endpoint) (hkey : keys (b.breakerKey endpoint.key)) (args : List Argument) :
    UsesKeys keys ((b.complete around (b.exchange around rule) endpoint).dispatch args) := by
  have hbacking : ∀ call, UsesKeys keys (b.backing (b.exchange around rule) endpoint.key call) := by
    intro call
    unfold backing
    cases b.registry? with
    | some registry => exact uses_guarding hkey (kept_executing _ call)
    | none => exact uses_kept (kept_executing _ call)
  have hbalanced : ∀ call, UsesKeys keys (b.balanced (b.backing (b.exchange around rule) endpoint.key) call) := by
    intro call
    unfold balanced
    split
    · exact layering_uses.balancing noting_kept (fun _ _ _ => obeys_true _) hbacking (fun _ _ => rfl) (fun _ => rfl)
        _ call
    · exact hbacking call
  unfold Method.dispatch complete retried
  dsimp only
  cases b.policy? around with
  | some policy =>
    exact layering_uses.attemptsFrom noting_kept (hbalanced _) (fun _ _ => rfl) (fun _ _ _ => rfl) (entry?_told _) _ _
  | none => exact hbalanced _

/-- The keys that a task may use are those of its methods. -/
def keysOf (b : Builder ε) (client : Client ε) (uses : Method ε → Prop) (key : String) : Prop :=
  ∃ m ∈ client.methods, uses m ∧ b.breakerKey m.key = key

variable {client : Client ε} {t₀ t₁ : Instant} {s₀ s₁ : World ε} {ws₀ : List (Write (World ε))}

theorem kept_of_tells {listeners : List Listener} {s s' : World ε} (h : Method.Tells listeners s s') :
    BreakersKept s s' := by
  rcases h with rfl | ⟨event, rfl⟩
  · exact noting_kept.refl _
  · exact noting_kept.note s _ (entry?_told listeners event)

theorem uses_of_calls (hbuild : Ends (b.build around) t₀ s₀ ws₀ (.ok client) t₁ s₁) {uses : Method ε → Prop}
    {x : Stage ε α} (h : client.Calls uses x) : UsesKeys (b.keysOf client uses) x := by
  cases h with
  | invocation hm huses hinvokes =>
    obtain ⟨endpoints, rule, -, -, hmethods⟩ := methods_of_build hbuild
    have hendpoint := hm
    rw [hmethods] at hendpoint
    obtain ⟨endpoint, -, rfl⟩ := List.mem_map.1 hendpoint
    obtain ⟨rest, ⟨rfl, htells⟩, -⟩ := hinvokes.hands
    refine uses_andThen (uses_kept obeys_now) fun started => ?_
    exact uses_andThen (uses_dispatch endpoint ⟨_, hm, huses, rfl⟩ _) fun r =>
      uses_kept ((htells started r).weaken fun _ _ => kept_of_tells)
  | outside work => exact uses_kept (noting_kept.outside (obeys_true work))

theorem uses_of_program (hbuild : Ends (b.build around) t₀ s₀ ws₀ (.ok client) t₁ s₁) {uses : Method ε → Prop}
    {x : Stage ε α} (h : Program (fun x => client.Calls uses x) x) : UsesKeys (b.keysOf client uses) x := by
  induction h with
  | part hx => exact uses_of_calls hbuild hx
  | sleep d => exact uses_kept (obeys_sleep noting_kept.refl d)
  | done a => exact uses_kept (obeys_done a)
  | andThen _ _ ihx ihf => exact uses_andThen ihx ihf
  | within limit _ ih => exact uses_within ih limit

/-- What tasks hold before they begin. -/
def unheld (b : Builder ε) (client : Client ε) (uses : Nat → Method ε → Prop) (number : Nat) : Holding :=
  ⟨b.keysOf client (uses number), none⟩

theorem chain_of_runs (hbuild : Ends (b.build around) t₀ s₀ ws₀ (.ok client) t₁ s₁)
    {uses : Nat → Method ε → Prop} {tasks : List (Task (World ε) β)} (htasks : client.Runs uses tasks) (t : Instant)
    (s : World ε) (turns : List Turn) : ∃ now, Chain holdings (b.unheld client uses) s
      ((Crowd.start t s tasks).run turns).writes now ((Crowd.start t s tasks).run turns).state := by
  obtain ⟨now, hchained⟩ := Crowd.chain_run holdings (fun _ _ => True) _ (fun _ _ _ => trivial)
    (fun _ => trivial)
    (fun number task htask t s => uses_of_program hbuild (htasks number task htask) none t s) t s turns
  exact ⟨now, hchained.chain⟩

/-- Methods with one breaker are the same. -/
theorem eq_of_breakerKey_eq (hbuild : Ends (b.build around) t₀ s₀ ws₀ (.ok client) t₁ s₁) {m m' : Method ε}
    (hm : m ∈ client.methods) (hm' : m' ∈ client.methods) (h : b.breakerKey m.key = b.breakerKey m'.key) : m = m' := by
  rw [breakerKey_eq_key, breakerKey_eq_key] at h
  have hlabel := Breaker.Label.eq_of_key_eq h (.inr (.inr ⟨rfl, rfl⟩))
  exact eq_of_key_eq hbuild hm hm' (congrArg Breaker.Label.method hlabel)

end Builder

/-! ## Isolation -/

/-- The methods of a client are isolated. Programs invoke methods of a client in any order of turns, with whatever
collaborators, retries, balancing and time limits. Then only those programs do anything with the breaker of a method
that invoke this method, and each change without an entry is the drop of a call that its task has been admitted with
last. All states of the breaker, and all that is noted of its calls, who is admitted and who is rejected, are those of
a breaker alone, with which the same is done at the same times. So with any other programs in any other order of
turns, from the same breaker on, they are the same as long as the same is done for this method, whatever happens on
the other methods. -/
theorem methods_isolated {b : Builder ε} {around : Surroundings ε} {client : Client ε} {t₀ t₁ : Instant}
    {s₀ s₁ : World ε} {ws₀ : List (Write (World ε))} (hbuild : Ends (b.build around) t₀ s₀ ws₀ (.ok client) t₁ s₁)
    {m : Method ε} (hm : m ∈ client.methods) {uses : Nat → Method ε → Prop} {tasks : List (Task (World ε) β)}
    (htasks : client.Runs uses tasks) (t : Instant) (s : World ε) (turns : List Turn) :
    let key := b.breakerKey m.key
    let c := (Crowd.start t s tasks).run turns
    (∀ moment ∈ life key c.writes, uses moment.touched.number m) ∧
    (∀ before number w after, c.writes = before ++ (number, w) :: after → touch? key w = some .drop →
      ∃ permit, permit.key = key ∧ (entriesBy number before).getLast? = some (.admitted permit) ∧
        w.after.breakers = w.before.breakers.release permit) ∧
    (let a := Alone.start s.breakers.config (s.breakers.get? key)
     life key c.writes = a.life key (touches key c.writes) ∧
       c.state.breakers.get? key = (a.after key (touches key c.writes)).breaker ∧
       ∀ before entry after, c.writes = before ++ entry :: after →
         entry.2.before.breakers.get? key = (a.after key (touches key before)).breaker) ∧
    ∀ (γ : Type) (uses' : Nat → Method ε → Prop) (tasks' : List (Task (World ε) γ)), client.Runs uses' tasks' →
      ∀ t' s' turns', s'.breakers.config = s.breakers.config → s'.breakers.get? key = s.breakers.get? key →
        let c' := (Crowd.start t' s' tasks').run turns'
        touches key c'.writes = touches key c.writes →
          life key c'.writes = life key c.writes ∧ c'.state.breakers.get? key = c.state.breakers.get? key := by
  intro key c
  obtain ⟨now, hchain⟩ := Builder.chain_of_runs hbuild htasks t s turns
  -- every write is a step from what the writes before it come to
  have hsplit : ∀ before number w after, c.writes = before ++ (number, w) :: after → ∃ mid holding,
      Chain holdings (b.unheld client uses) s before mid w.before ∧ Holds (mid number) w holding := by
    intro before number w after hwrites
    have hall : Chain holdings (b.unheld client uses) s (before ++ (number, w) :: after) now c.state := hwrites ▸ hchain
    obtain ⟨mid, holding, hbefore, -, hstep, -⟩ := hall.split
    exact ⟨mid, holding, hbefore, hstep⟩
  obtain ⟨hlife, hstands, -, hkeys⟩ := lives_alone key hchain fun _ => rfl
  refine ⟨fun moment hmem => ?_, fun before number w after hwrites hdrop => ?_, ⟨hlife, hstands.breaker, ?_⟩, ?_⟩
  -- only the method itself has a breaker under this key
  · obtain ⟨m', hm', huses, hsame⟩ := hkeys moment hmem
    rwa [← Builder.eq_of_breakerKey_eq hbuild hm' hm hsame]
  · obtain ⟨mid, holding, hbefore, hstep⟩ := hsplit before number w after hwrites
    obtain ⟨permit, hpermit, hown, hafter⟩ := hstep.dropped hdrop
    exact ⟨permit, hown, admitted_of_held hbefore (fun _ => rfl) number permit hpermit, hafter⟩
  · intro before entry after hwrites
    obtain ⟨mid, holding, hbefore, -⟩ := hsplit before entry.1 entry.2 after hwrites
    exact (lives_alone key hbefore fun _ => rfl).2.1.breaker
  · intro γ uses' tasks' htasks' t' s' turns' hconfig hbreaker c' htouches
    obtain ⟨now', hchain'⟩ := Builder.chain_of_runs hbuild htasks' t' s' turns'
    -- both lives are that of one breaker alone with which the same is done
    obtain ⟨hlife', hstands', -⟩ := lives_alone key hchain' fun _ => rfl
    rw [hconfig, hbreaker, htouches] at hlife' hstands'
    exact ⟨hlife'.trans hlife.symm, hstands'.breaker.trans hstands.breaker.symm⟩

/-! ## A method that fails beside one that does not -/

namespace Isolation

def failing : Endpoint := ⟨"Api#a()", "GET", .compile "/a", [], [], [], none, none, none, .single⟩

def working : Endpoint := ⟨"Api#b()", "GET", .compile "/b", [], [], [], none, none, none, .single⟩

/-- A client of which one method fails always and the other one never. The first failure opens a circuit. -/
def lopsided : Builder Unit where
  target := .url "https://localhost"
  config := { ClientConfig.minimal with
    breaker := some { BreakerConfig.default with failureThreshold := 1, minimumCalls := 1 } }
  methods := [failing, working]
  transport := some fun request =>
    .done (if request.uri.path = "/a" then .error (.transport .exchange "reset") else .ok ⟨.ok, .empty, [], none⟩)

/-- The methods of the client when it is built, and the world. -/
def built : Option (Method Unit × Method Unit × World Unit) :=
  match (lopsided.build Builder.nowhere).run 0 Builder.untouched with
  | (.ok ⟨_, [m, m']⟩, _, s) => some (m, m', s)
  | _ => none

/-- The first two tasks invoke the method that fails. -/
def uses (number : Nat) (m : Method Unit) : Prop := m.key = if number = 2 then "Api#b()" else "Api#a()"

/-- Between two invocations of the one method there is one of the other. -/
def beside (m m' : Method Unit) (s : World Unit) : Crowd (World Unit) (Except Error (Option Bytes)) :=
  (Crowd.start 0 s [⟨0, m.invokeSingle []⟩, ⟨0, m.invokeSingle []⟩, ⟨0, m'.invokeSingle []⟩]).run
    [⟨0, 0⟩, ⟨0, 2⟩, ⟨0, 1⟩]

/-- There is nothing between the invocations. -/
def apart (m : Method Unit) (s : World Unit) : Crowd (World Unit) (Except Error (Option Bytes)) :=
  (Crowd.start 0 s [⟨0, m.invokeSingle []⟩, ⟨0, m.invokeSingle []⟩, ⟨0, .done (.ok none)⟩]).run [⟨0, 0⟩, ⟨0, 1⟩]

theorem ends_of_built {m m' : Method Unit} {s : World Unit} (h : built = some (m, m', s)) :
    ∃ client t ws, Ends (lopsided.build Builder.nowhere) 0 Builder.untouched ws (.ok client) t s ∧
      client.methods = [m, m'] := by
  obtain ⟨ws, hends⟩ := ends_run (lopsided.build Builder.nowhere) 0 Builder.untouched
  unfold built at h
  generalize (lopsided.build Builder.nowhere).run 0 Builder.untouched = outcome at hends h
  obtain ⟨result, t, s'⟩ := outcome
  rcases result with e | ⟨target, _ | ⟨m₁, _ | ⟨m₂, _ | _⟩⟩⟩
  · cases h
  · cases h
  · cases h
  · cases h
    exact ⟨_, t, ws, hends, rfl⟩
  · cases h

/-- The first invocation opens the circuit and the second one is rejected, with the other method or without it. -/
theorem methods_isolated_lopsided : ∃ client m m' t s, ∃ ws₀,
    Ends (lopsided.build Builder.nowhere) 0 Builder.untouched ws₀ (.ok client) t s ∧ m ∈ client.methods ∧
    client.Runs uses [⟨0, m.invokeSingle []⟩, ⟨0, m.invokeSingle []⟩, ⟨0, m'.invokeSingle []⟩] ∧
    (let key := lopsided.breakerKey m.key
     (life key (beside m m' s).writes).map Moment.entries =
       [[.admitted ⟨key, false⟩], [.reported ⟨key, false⟩ .failure], [.rejected key]] ∧
     life key (apart m s).writes = life key (beside m m' s).writes) := by
  -- what is done with the breaker is the same in both runs; that its life is too is left to the theorem
  have hrun : built.map (fun p =>
      let key := lopsided.breakerKey p.1.key
      (p.1.key, p.2.1.key, (life key (beside p.1 p.2.1 p.2.2).writes).map Moment.entries,
        decide (touches key (apart p.1 p.2.2).writes = touches key (beside p.1 p.2.1 p.2.2).writes))) =
      let key := lopsided.breakerKey "Api#a()"
      some ("Api#a()", "Api#b()",
        [[.admitted ⟨key, false⟩], [.reported ⟨key, false⟩ .failure], [.rejected key]], true) := by decide +kernel
  obtain ⟨⟨m, m', s⟩, hbuilt, hmade⟩ := Option.map_eq_some_iff.1 hrun
  simp only [Prod.mk.injEq, decide_eq_true_eq] at hmade
  obtain ⟨hkey, hkey', hentries, htouches⟩ := hmade
  obtain ⟨client, t, ws, hbuild, hmethods⟩ := ends_of_built hbuilt
  have hm : m ∈ client.methods := by simp [hmethods]
  have hm' : m' ∈ client.methods := by simp [hmethods]
  have hcalls : ∀ number, number ≠ 2 →
      Program (fun x => client.Calls (uses number) x) (m.invokeSingle []) := fun number hne =>
    .part (.invocation hm (hkey.trans (if_neg hne).symm) .single)
  have hruns : ∀ x, Program (fun x => client.Calls (uses 2) x) x →
      client.Runs uses [⟨0, m.invokeSingle []⟩, ⟨0, m.invokeSingle []⟩, ⟨0, x⟩] := by
    intro x hx number task htask
    match number with
    | 0 | 1 =>
      cases htask
      exact hcalls _ (by decide)
    | 2 =>
      cases htask
      exact hx
    | n + 3 => cases htask
  have hbeside := hruns (m'.invokeSingle []) (.part (.invocation hm' hkey' .single))
  obtain ⟨-, -, -, hsame⟩ := methods_isolated hbuild hm hbeside 0 s [⟨0, 0⟩, ⟨0, 2⟩, ⟨0, 1⟩]
  obtain ⟨hlife, -⟩ := hsame _ uses _ (hruns _ (.done _)) 0 s [⟨0, 0⟩, ⟨0, 1⟩] rfl rfl htouches
  refine ⟨client, m, m', t, s, ws, hbuild, hm, hbeside, ?_, hlife⟩
  rw [hentries, hkey]

end Isolation

end ResilientClient
