/-
Holdings. What a task may do with the breakers: it may ask those of its own keys for a call, and report or drop the
call that it has been admitted with; everything else leaves the breakers as they are and notes nothing about them.
Every layer of a pipeline keeps to this with the key of its guard, however it is configured (`uses_guarding`,
`layering_uses`).
-/
import ResilientClient.Proofs.Fiber.Chain
import ResilientClient.Proofs.Pipeline.Accounts
import ResilientClient.Proofs.Pipeline.Noting

open ResilientClient.Fiber

namespace ResilientClient

variable {ε α β : Type}

/-! ## Entries about breakers -/

/-- The key of the breaker that an entry is about. -/
def Entry.key : Entry → String
  | .admitted permit => permit.key
  | .rejected key => key
  | .reported permit _ => permit.key

/-- The entry of an answer of the breaker of a key. -/
def Entry.ofAnswer (key : String) : Option Permit → Entry
  | some permit => .admitted permit
  | none => .rejected key

/-- The entries about breakers that a write notes. -/
def breakerEntries (w : Write (World ε)) : List Entry :=
  (gained w.before.past w.after.past).filterMap Occurrence.entry?

/-- An operation on a breaker notes its log lines first. -/
theorem breakerEntries_note (t : Instant) (s : World ε) (breakers : BreakerRegistry) (lines : List TraceLine)
    (o : Occurrence) : breakerEntries ⟨t, s, World.note { s with breakers } (lines.map .logged ++ [o])⟩ =
      o.entry?.toList := by
  have hlines : (lines.map Occurrence.logged).filterMap Occurrence.entry? = [] :=
    List.filterMap_eq_nil_iff.2 fun o ho => by
      obtain ⟨line, -, rfl⟩ := List.mem_map.1 ho
      rfl
  unfold breakerEntries World.note
  rw [gained_append, List.reverse_reverse, List.filterMap_append, hlines]
  cases h : o.entry? <;> simp [h]

theorem entry?_told (listeners : List Listener) (event : Event) :
    ∀ o ∈ World.told listeners event, o.entry? = none := by
  intro o ho
  obtain ⟨listener, -, ho⟩ := List.mem_flatMap.1 ho
  cases listener with
  | recorder name =>
    obtain rfl := List.mem_singleton.1 ho
    rfl
  | silent => cases ho
  | logger level =>
    obtain ⟨line, -, rfl⟩ := List.mem_map.1 ho
    rfl

/-! ## The rule -/

/-- What a task holds: the keys that it may use, and the permit of its call, unless that has been reported. A
permit that is dropped is still held until the task asks again. -/
structure Holding where
  keys : String → Prop
  permit : Option Permit

/-- The breakers are left as they are, and nothing about them is noted. -/
structure BreakersKept (s s' : World ε) : Prop where
  breakers : s'.breakers = s.breakers
  entries : (gained s.past s'.past).filterMap Occurrence.entry? = []

/-- What a task may do with what it holds. -/
inductive Holds : Holding → Write (World ε) → Holding → Prop
  | keeps {holding : Holding} {w : Write (World ε)} : BreakersKept w.before w.after → Holds holding w holding
  | asks {holding : Holding} {key : String} {w : Write (World ε)} : holding.keys key →
      w.after.breakers = (w.before.breakers.acquire key w.time).2.1 →
      breakerEntries w = [.ofAnswer key (w.before.breakers.acquire key w.time).1] →
      Holds holding w ⟨holding.keys, (w.before.breakers.acquire key w.time).1⟩
  | reports {keys : String → Prop} {permit : Permit} {verdict : Verdict} {w : Write (World ε)} : keys permit.key →
      w.after.breakers = (w.before.breakers.report permit w.time verdict).1 →
      breakerEntries w = [.reported permit verdict] → Holds ⟨keys, some permit⟩ w ⟨keys, none⟩
  | drops {keys : String → Prop} {permit : Permit} {w : Write (World ε)} : keys permit.key →
      w.after.breakers = w.before.breakers.release permit → breakerEntries w = [] →
      Holds ⟨keys, some permit⟩ w ⟨keys, some permit⟩

/-- A task may wait whatever it holds. -/
def holdings : TimedRule (World ε) Holding := ⟨Holds, fun _ => True⟩

theorem Holds.keys_eq {holding holding' : Holding} {w : Write (World ε)} (h : Holds holding w holding') :
    holding'.keys = holding.keys := by
  cases h <;> rfl

/-- Only these keys are used, whatever is held. -/
def UsesKeys (keys : String → Prop) (x : Stage ε α) : Prop :=
  ∀ permit t s, AbidesAt holdings (fun _ _ => True) x ⟨keys, permit⟩ t s

namespace Pipeline

/-! ## Stages that keep the breakers -/

theorem noting_kept :
    Noting (fun o => o.entry? = none) (fun _ _ => True) (BreakersKept : World ε → World ε → Prop) where
  note s os hos := ⟨rfl, by
    rw [World.note, gained_append, List.reverse_reverse]
    exact List.filterMap_eq_nil_iff.2 hos⟩
  work s o _ := ⟨rfl, by simp⟩

section Parts

variable {keys : String → Prop} {x : Stage ε α} {f : α → Stage ε β}

theorem uses_kept (h : Obeys BreakersKept x) : UsesKeys keys x := fun _ t s =>
  (h.abidesAt (fun t s s' hkept => Holds.keeps (w := ⟨t, s, s'⟩) hkept) trivial t s).ending fun _ _ _ => trivial

theorem uses_andThen (hx : UsesKeys keys x) (hf : ∀ a, UsesKeys keys (f a)) : UsesKeys keys (x.andThen f) := by
  intro permit t s
  have hkeys := (hx permit t s).keeping (I := fun holding => holding.keys = keys)
    (fun _ _ _ (hstep : Holds _ _ _) hkeys => hstep.keys_eq.trans hkeys) rfl
  refine abidesAt_andThen hkeys fun holding a t s hholding => ?_
  obtain ⟨keys', permit'⟩ := holding
  obtain ⟨-, rfl⟩ := hholding
  exact hf a permit' t s

theorem uses_within (h : UsesKeys keys x) (limit : Nat) : UsesKeys keys (x.within limit) := fun permit t s =>
  (abidesAt_within (h permit t s)).ending fun _ _ _ => trivial

theorem layering_uses : Layering (BreakersKept : World ε → World ε → Prop) fun x => UsesKeys keys x :=
  ⟨uses_kept, uses_andThen⟩

end Parts

/-! ## The guard -/

section Guard

variable {keys : String → Prop} {key : String} {permit : Permit} {limit : Option Duration}
  {fallback : Option (Fallback ε)} {inner : Service ε} {call : Call} {t : Instant} {s : World ε}

/-- The breaker is asked, and from then on the permit is held, if there is one. -/
theorem abidesAt_acquire (hkey : keys key) (held : Option Permit) :
    AbidesAt holdings
      (fun holding answer => holding = ⟨keys, answer⟩ ∧ ∀ permit, answer = some permit → permit.key = key)
      (acquire key) ⟨keys, held⟩ t s := by
  refine abidesAt_modifyGet ⟨_, Holds.asks hkey rfl ?_, rfl, fun permit hpermit => ?_⟩
  · refine (breakerEntries_note _ _ _ _ _).trans ?_
    cases (s.breakers.acquire key t).1 <;> rfl
  · obtain ⟨trial, -, rfl⟩ := Option.map_eq_some_iff.1 hpermit
    rfl

/-- The call is reported, and from then on the breakers are kept. -/
theorem abidesAt_report {verdict : Verdict} {f : Unit → Stage ε α} (hkey : keys permit.key)
    (hf : ∀ a, Obeys BreakersKept (f a)) :
    AbidesAt holdings (fun _ _ => True) ((report permit verdict).andThen f) ⟨keys, some permit⟩ t s := by
  have hreport : AbidesAt holdings (fun holding _ => holding = ⟨keys, none⟩) (report permit verdict)
      ⟨keys, some permit⟩ t s := by
    exact abidesAt_modifyGet ⟨_, Holds.reports hkey rfl (breakerEntries_note _ _ _ _ _), rfl⟩
  refine abidesAt_andThen hreport fun holding a t s hholding => ?_
  subst hholding
  exact uses_kept (hf a) none t s

theorem kept_recover (fallback : Option (Fallback ε)) (call : Call) (cause : Error) :
    Obeys BreakersKept (recover fallback call cause) :=
  noting_kept.recover (fun _ _ _ _ _ => obeys_true _) rfl rfl

theorem abidesAt_conclude (hkey : keys permit.key) (o : Outcome) :
    AbidesAt holdings (fun _ _ => True) (conclude fallback call permit o) ⟨keys, some permit⟩ t s := by
  cases o with
  | ok response => exact abidesAt_report hkey fun _ => obeys_done _
  | error e =>
    simp only [conclude]
    split
    · exact abidesAt_report hkey fun _ => obeys_done _
    · exact abidesAt_report hkey fun _ => kept_recover fallback call e

/-- A guard uses its own key only, if the service inside keeps the breakers. -/
theorem uses_guarding (hkey : keys key) (hinner : Obeys BreakersKept (inner call)) :
    UsesKeys keys (guarding key limit fallback inner call) := by
  intro held t s
  refine abidesAt_andThen (abidesAt_acquire hkey held) fun holding answer t s hanswer => ?_
  obtain ⟨rfl, hpermit⟩ := hanswer
  cases answer with
  | none =>
    exact uses_kept (obeys_andThen (noting_kept.one rfl) fun _ => kept_recover fallback call _) none t s
  | some permit =>
    have hown : keys permit.key := hpermit permit rfl ▸ hkey
    -- a call that is cut off drops its permit, whatever else is undone
    have hattempt : AbidesAt holdings (fun holding _ => holding = ⟨keys, some permit⟩)
        ((limited limit call.method (inner call)).protect (release permit)) ⟨keys, some permit⟩ t s := by
      refine (obeys_limited hinner limit call.method).protectedAt
        (fun t s s' hkept => Holds.keeps (w := ⟨t, s, s'⟩) hkept) (fun t s s' hkept => ?_) trivial t s
      exact Holds.drops (w := ⟨t, s, release permit s'⟩) hown (congrArg (·.release permit) hkept.breakers) hkept.entries
    refine abidesAt_andThen hattempt fun holding o t s hholding => ?_
    subst hholding
    exact abidesAt_conclude hown o

theorem kept_executing (exchange : Exchange ε) (call : Call) : Obeys BreakersKept (executing exchange call) :=
  noting_kept.executing (fun _ => obeys_true _) (fun _ _ => obeys_true _) (entry?_told _)
    (fun _ _ => noting_kept.one rfl) fun _ _ => rfl

end Guard

end Pipeline

end ResilientClient
