/-
Journeys through the outer layers of a pipeline. Around the calls of the service inside, retries and
balancing look up instances, write log lines, tell listeners and rest; each of these is a leg, and a path
that is made of legs, one after the other, is a journey (`Journey`). Which sequences of legs a layer can go
through, and what it then ends with, is its course.
-/
import ResilientClient.Pipeline.Balance
import ResilientClient.Proofs.Pipeline.Record

open ResilientClient.Fiber

namespace ResilientClient.Pipeline

variable {ε : Type}

/-! ## Legs -/

/-- One thing that is done for a call. -/
inductive Leg where
  /-- The service inside is called. -/
  | attempt (call : Call) (outcome : Outcome)
  /-- An instance is looked up. -/
  | lookup (service : String) (outcome : Except Error Server)
  /-- A log line is written. -/
  | log (line : TraceLine)
  /-- The listeners are told an event. -/
  | tell (listeners : List Listener) (event : Event)
  /-- Nothing is done for a span. -/
  | rest (delay : Duration)

/-- The path of a leg, with the service inside and the resolver that are used for it. -/
def Leg.Made (resolver : Option (Resolver ε)) (inner : Service ε) (t : Instant) (s : World ε)
    (ws : List (Write (World ε))) (t' : Instant) (s' : World ε) : Leg → Prop
  | .attempt call outcome => Ends (inner call) t s ws outcome t' s'
  | .lookup service outcome =>
    ∃ look, resolver = some look ∧ Ends (choose look service none) t s ws outcome t' s'
  | .log line => Ends (Stage.log line) t s ws () t' s'
  | .tell listeners event => Ends (Stage.tell listeners event) t s ws () t' s'
  | .rest delay => Ends (Fiber.sleep delay) t s ws () t' s'

/-- A path that is made of legs. -/
inductive Journey (resolver : Option (Resolver ε)) (inner : Service ε) :
    List Leg → Instant → World ε → List (Write (World ε)) → Instant → World ε → Prop
  | nil {t : Instant} {s : World ε} : Journey resolver inner [] t s [] t s
  | cons {leg : Leg} {legs : List Leg} {t t₁ t' : Instant} {s s₁ s' : World ε}
      {us vs : List (Write (World ε))} :
      leg.Made resolver inner t s us t₁ s₁ → Journey resolver inner legs t₁ s₁ vs t' s' →
      Journey resolver inner (leg :: legs) t s (us ++ vs) t' s'

section Journeys

variable {resolver : Option (Resolver ε)} {inner : Service ε} {legs more : List Leg} {leg : Leg}
  {t t₁ t' : Instant} {s s₁ s' : World ε} {us vs ws : List (Write (World ε))}

theorem Journey.append (h : Journey resolver inner legs t s us t₁ s₁)
    (h' : Journey resolver inner more t₁ s₁ vs t' s') :
    Journey resolver inner (legs ++ more) t s (us ++ vs) t' s' := by
  induction h with
  | nil => exact h'
  | cons hleg _ ih =>
    rw [List.append_assoc]
    exact .cons hleg (ih h')

/-- A journey is one on its first legs, and then one on the others. -/
theorem Journey.exists_of_append (h : Journey resolver inner (legs ++ more) t s ws t' s') :
    ∃ us t₁ s₁ vs, ws = us ++ vs ∧ Journey resolver inner legs t s us t₁ s₁ ∧
      Journey resolver inner more t₁ s₁ vs t' s' := by
  induction legs generalizing t s ws with
  | nil => exact ⟨[], t, s, ws, rfl, .nil, h⟩
  | cons leg legs ih =>
    cases h with
    | cons hleg hrest =>
      obtain ⟨us, t₁, s₁, vs, rfl, hlegs, hmore⟩ := ih hrest
      exact ⟨_, t₁, s₁, vs, (List.append_assoc _ _ _).symm, .cons hleg hlegs, hmore⟩

/-! A leg in front of a journey. -/

theorem Journey.attempt {call : Call} {o : Outcome} (h : Ends (inner call) t s us o t₁ s₁)
    (h' : Journey resolver inner legs t₁ s₁ vs t' s') :
    Journey resolver inner (.attempt call o :: legs) t s (us ++ vs) t' s' :=
  .cons h h'

theorem Journey.lookup {look : Resolver ε} {service : String} {outcome : Except Error Server}
    (h : Ends (choose look service none) t s us outcome t₁ s₁)
    (h' : Journey (some look) inner legs t₁ s₁ vs t' s') :
    Journey (some look) inner (.lookup service outcome :: legs) t s (us ++ vs) t' s' :=
  .cons ⟨look, rfl, h⟩ h'

theorem Journey.log {line : TraceLine} {u : Unit} (h : Ends (Stage.log line) t s us u t₁ s₁)
    (h' : Journey resolver inner legs t₁ s₁ vs t' s') :
    Journey resolver inner (.log line :: legs) t s (us ++ vs) t' s' :=
  .cons h h'

theorem Journey.tell {listeners : List Listener} {event : Event} {u : Unit}
    (h : Ends (Stage.tell listeners event) t s us u t₁ s₁)
    (h' : Journey resolver inner legs t₁ s₁ vs t' s') :
    Journey resolver inner (.tell listeners event :: legs) t s (us ++ vs) t' s' :=
  .cons h h'

theorem Journey.rest {d : Duration} {u : Unit} (h : Ends (Fiber.sleep d) t s us u t₁ s₁)
    (h' : Journey resolver inner legs t₁ s₁ vs t' s') :
    Journey resolver inner (.rest d :: legs) t s (us ++ vs) t' s' :=
  .cons h h'

/-- A lookup ends as the resolver says. -/
theorem Leg.Made.resolved {service : String} {found : Except Error Server}
    (h : (Leg.lookup service found).Made resolver inner t s ws t' s') :
    ∃ look us t₁ o₁, resolver = some look ∧ Ends (look service) t s.outside us found t₁ o₁ := by
  obtain ⟨look, hlook, hchoose⟩ := h
  obtain ⟨us, outcome, t₁, s₁, vs, -, hresolve, hrest⟩ := (ends_andThen _ _).1 hchoose
  obtain ⟨us', _, t₂, s₂, vs', -, -, hend⟩ := (ends_andThen _ _).1 hrest
  obtain ⟨-, rfl, -, -⟩ := ends_done.1 hend
  exact ⟨look, _, t₁, _, hlook, (ends_outside hresolve).1⟩

theorem Leg.Made.journey (h : leg.Made resolver inner t s ws t' s') :
    Journey resolver inner [leg] t s ws t' s' := by
  have hone := Journey.cons h .nil
  rwa [List.append_nil] at hone

/-- Every leg of a journey is made on its path. -/
theorem Journey.made_of_mem (h : Journey resolver inner legs t s ws t' s') (hmem : leg ∈ legs) :
    ∃ t s ws t' s', leg.Made resolver inner t s ws t' s' := by
  induction h with
  | nil => cases hmem
  | cons hleg _ ih =>
    rcases List.mem_cons.1 hmem with rfl | hmem
    · exact ⟨_, _, _, _, _, hleg⟩
    · exact ih hmem

end Journeys

/-! ## Attempts on a journey -/

/-- What an attempt ended with. -/
def Leg.outcome? : Leg → Option Outcome
  | .attempt _ o => some o
  | _ => none

/-- What the attempts on a journey ended with, in order. -/
def outcomesOf (legs : List Leg) : List Outcome := legs.filterMap Leg.outcome?

/-- The number of attempts on a journey. -/
def attempts (legs : List Leg) : Nat := (outcomesOf legs).length

section Attempts

variable {legs more : List Leg}

@[simp] theorem outcomesOf_nil : outcomesOf [] = [] := rfl

@[simp] theorem outcomesOf_append : outcomesOf (legs ++ more) = outcomesOf legs ++ outcomesOf more :=
  List.filterMap_append

@[simp] theorem outcomesOf_attempt (call : Call) (o : Outcome) :
    outcomesOf (.attempt call o :: legs) = o :: outcomesOf legs := rfl

@[simp] theorem outcomesOf_lookup (service : String) (o : Except Error Server) :
    outcomesOf (.lookup service o :: legs) = outcomesOf legs := rfl

@[simp] theorem outcomesOf_log (line : TraceLine) :
    outcomesOf (.log line :: legs) = outcomesOf legs := rfl

@[simp] theorem outcomesOf_tell (listeners : List Listener) (event : Event) :
    outcomesOf (.tell listeners event :: legs) = outcomesOf legs := rfl

@[simp] theorem outcomesOf_rest (d : Duration) : outcomesOf (.rest d :: legs) = outcomesOf legs := rfl

@[simp] theorem attempts_nil : attempts [] = 0 := rfl

@[simp] theorem attempts_append : attempts (legs ++ more) = attempts legs + attempts more := by
  simp [attempts]

@[simp] theorem attempts_attempt (call : Call) (o : Outcome) :
    attempts (.attempt call o :: legs) = attempts legs + 1 := rfl

@[simp] theorem attempts_lookup (service : String) (o : Except Error Server) :
    attempts (.lookup service o :: legs) = attempts legs := rfl

@[simp] theorem attempts_log (line : TraceLine) : attempts (.log line :: legs) = attempts legs := rfl

@[simp] theorem attempts_tell (listeners : List Listener) (event : Event) :
    attempts (.tell listeners event :: legs) = attempts legs := rfl

@[simp] theorem attempts_rest (d : Duration) : attempts (.rest d :: legs) = attempts legs := rfl

theorem exists_attempt (h : 0 < attempts legs) : ∃ call o, .attempt call o ∈ legs := by
  obtain ⟨o, ho⟩ := List.exists_mem_of_length_pos h
  obtain ⟨leg, hmem, hleg⟩ := List.mem_filterMap.1 ho
  cases leg with
  | attempt call o' => exact ⟨call, o', hmem⟩
  | lookup | log | tell | rest => cases hleg

theorem attempts_pos_of_mem {call : Call} {o : Outcome} (h : .attempt call o ∈ legs) : 0 < attempts legs :=
  List.length_pos_of_mem (List.mem_filterMap.2 ⟨_, h, rfl⟩)

end Attempts

/-! ## Courses -/

/-- Sequences of legs, and what they end with. -/
abbrev Course := List Leg → Outcome → Prop

/-- Whatever happens during its waits, the work is a journey on the course. -/
def Takes (resolver : Option (Resolver ε)) (inner : Service ε) (work : Stage ε Outcome) (course : Course) :
    Prop :=
  ∀ t s ws r t' s', Ends work t s ws r t' s' →
    ∃ legs, Journey resolver inner legs t s ws t' s' ∧ course legs r

/-- One attempt, the outcome of which is the end. -/
def once (call : Call) : Course := fun legs o => legs = [.attempt call o]

theorem takes_once (resolver : Option (Resolver ε)) (inner : Service ε) (call : Call) :
    Takes resolver inner (inner call) (once call) := by
  intro t s ws r t' s' h
  have hleg : (Leg.attempt call r).Made resolver inner t s ws t' s' := h
  exact ⟨[.attempt call r], hleg.journey, rfl⟩

/-! ## Failures that are the end -/

section Last

variable {F : Error → Prop} {legs more : List Leg} {r : Outcome} {call : Call} {e : Error}

/-- No attempt fails in such a way. -/
def Free (F : Error → Prop) (legs : List Leg) : Prop :=
  ∀ call e, .attempt call (.error e) ∈ legs → ¬ F e

/-- An attempt that fails in such a way is the last leg, and its failure is the outcome. -/
def EndsAt (F : Error → Prop) (legs : List Leg) (r : Outcome) : Prop :=
  ∀ before call e after, legs = before ++ .attempt call (.error e) :: after → F e →
    after = [] ∧ r = .error e

@[simp] theorem free_nil : Free F [] := fun _ _ h => absurd h List.not_mem_nil

@[simp] theorem free_attempt : Free F (.attempt call (.error e) :: legs) ↔ ¬ F e ∧ Free F legs := by
  unfold Free
  constructor
  · intro h
    exact ⟨h call e List.mem_cons_self, fun call' e' hmem => h call' e' (List.mem_cons_of_mem _ hmem)⟩
  · rintro ⟨he, h⟩ call' e' hmem
    rcases List.mem_cons.1 hmem with hfirst | hmem
    · cases hfirst
      exact he
    · exact h call' e' hmem

@[simp] theorem free_lookup {service : String} {o : Except Error Server} :
    Free F (.lookup service o :: legs) ↔ Free F legs := by
  simp [Free]

@[simp] theorem free_log {line : TraceLine} : Free F (.log line :: legs) ↔ Free F legs := by
  simp [Free]

@[simp] theorem free_tell {listeners : List Listener} {event : Event} :
    Free F (.tell listeners event :: legs) ↔ Free F legs := by
  simp [Free]

@[simp] theorem free_rest {d : Duration} : Free F (.rest d :: legs) ↔ Free F legs := by
  simp [Free]

@[simp] theorem free_append : Free F (legs ++ more) ↔ Free F legs ∧ Free F more := by
  simp only [Free, List.mem_append]
  constructor
  · intro h
    exact ⟨fun call e hmem => h call e (.inl hmem), fun call e hmem => h call e (.inr hmem)⟩
  · rintro ⟨h, h'⟩ call e (hmem | hmem)
    · exact h call e hmem
    · exact h' call e hmem

@[simp] theorem free_flatMap {α : Type} {f : α → List Leg} {l : List α} :
    Free F (l.flatMap f) ↔ ∀ a ∈ l, Free F (f a) := by
  induction l with
  | nil => simp
  | cons a l ih => simp [ih]

theorem Free.endsAt (h : Free F legs) : EndsAt F legs r := by
  rintro before call e after rfl hF
  exact absurd hF (h call e (by simp))

theorem endsAt_attempt (call : Call) (o : Outcome) : EndsAt F [.attempt call o] o := by
  intro before call' e after hlegs hF
  cases before with
  | nil =>
    obtain ⟨hattempt, hafter⟩ := List.cons.inj hlegs
    cases hattempt
    exact ⟨hafter.symm, rfl⟩
  | cons leg before => simp at hlegs

theorem EndsAt.mono {G : Error → Prop} (hsub : ∀ e, F e → G e) (h : EndsAt G legs r) : EndsAt F legs r :=
  fun before call e after hlegs hF => h before call e after hlegs (hsub e hF)

/-- In front of the end there are no failures of that kind. -/
theorem Free.endsAt_append (h : Free F legs) (h' : EndsAt F more r) : EndsAt F (legs ++ more) r := by
  intro before call e after hlegs hF
  rcases List.append_eq_append_iff.1 hlegs with ⟨mid, rfl, hmore⟩ | ⟨mid, hsplit, hmid⟩
  · exact h' mid call e after hmore hF
  · cases mid with
    | nil => exact h' [] call e after hmid.symm hF
    | cons leg mid =>
      -- the attempt would be one of those in front
      obtain ⟨rfl, -⟩ := List.cons.inj hmid
      exact absurd hF (h call e (by simp [hsplit]))

/-- If another failure is the end, there are no failures of that kind. -/
theorem EndsAt.free (h : EndsAt F legs (.error e)) (he : ¬ F e) : Free F legs := by
  intro call e' hmem hF
  obtain ⟨before, after, rfl⟩ := List.append_of_mem hmem
  obtain ⟨-, hr⟩ := h before call e' after rfl hF
  cases hr
  exact he hF

end Last

end ResilientClient.Pipeline
