/-
Keys of breakers. A key is the method, the uniquifier after a `#` and the target after an `@`, without any
escape, so a sign inside a part reads like one between two parts. Here is exactly which labels have one key
(`Label.key_eq_iff`), and that uses of a registry under one key leave the breakers of all other keys as they
are (`BreakerRegistry.Uses.get?_other`); so clients share a breaker exactly if their labels overlap.
-/
import ResilientClient.Client.Builder
import ResilientClient.Proofs.Breaker.Registry

namespace ResilientClient.Breaker

/-! ## Labels -/

/-- What a breaker is labelled with. -/
structure Label where
  method : String
  uniquifier : Option String
  target : Option String
deriving DecidableEq, Repr

namespace Label

def key (l : Label) : String := Breaker.key l.method l.uniquifier l.target

/-- An optional part behind its sign. -/
def marked (sign : Char) : Option String → List Char
  | none => []
  | some part => sign :: part.toList

/-- What the key of a label has behind the method. -/
def marks (l : Label) : List Char := marked '#' l.uniquifier ++ marked '@' l.target

variable {l l' : Label} {m w x y : String} {u u' t t' : Option String}

theorem toList_key (l : Label) : l.key.toList = l.method.toList ++ l.marks := by
  obtain ⟨m, u, t⟩ := l
  unfold key Breaker.key marks
  cases u <;> cases t <;> simp [marked]

/-- The signs under which two labels have one key: a sign inside a part of the second one stands where the
first one has a sign between two parts. -/
inductive Overlaps : Label → Label → Prop
  /-- The method of the second goes on into the target of the first. -/
  | target (m w : String) (u t : Option String) :
    Overlaps ⟨m, none, some (key ⟨w, u, t⟩)⟩ ⟨m ++ "@" ++ w, u, t⟩
  /-- The method of the second goes on into the uniquifier of the first, and what is left of both keys is the
  same again. -/
  | uniquifier (m x w : String) (t u' t' : Option String) (hrest : key ⟨x, none, t⟩ = key ⟨w, u', t'⟩) :
    Overlaps ⟨m, some x, t⟩ ⟨m ++ "#" ++ w, u', t'⟩
  /-- The uniquifier of the second goes on into the target of the first. -/
  | within (m x y : String) (t : Option String) :
    Overlaps ⟨m, some x, some (key ⟨y, none, t⟩)⟩ ⟨m, some (x ++ "@" ++ y), t⟩

theorem key_eq_of_overlaps (h : Overlaps l l') : l.key = l'.key := by
  rw [← String.toList_inj]
  cases h with
  | target m w u t => simp [toList_key, marks, marked]
  | within m x y t => simp [toList_key, marks, marked]
  | uniquifier m x w t u' t' hrest =>
    have hlist : x.toList ++ marked '@' t = w.toList ++ marks ⟨w, u', t'⟩ := by
      simpa [toList_key, marks, marked] using congrArg String.toList hrest
    rw [toList_key, toList_key]
    have hmarks : marks ⟨m, some x, t⟩ = '#' :: (x.toList ++ marked '@' t) := rfl
    rw [hmarks, hlist]
    simp [marks]

theorem marked_injective (sign : Char) : Function.Injective (marked sign) := by
  intro a b h
  cases a <;> cases b <;> simp_all [marked, String.toList_inj]

/-- A key that goes on behind a uniquifier has a target there. -/
theorem overlaps_of_uniquifiers {rest : List Char} (hx : x.toList = y.toList ++ rest)
    (ht : marked '@' t' = rest ++ marked '@' t) (m : String) :
    (⟨m, some x, t⟩ : Label) = ⟨m, some y, t'⟩ ∨ Overlaps ⟨m, some y, t'⟩ ⟨m, some x, t⟩ := by
  cases rest with
  | nil =>
    left
    rw [List.append_nil] at hx
    rw [String.toList_inj.1 hx, marked_injective '@' ht]
  | cons c rest =>
    right
    cases t' with
    | none => simp [marked] at ht
    | some z =>
      obtain ⟨rfl, hz⟩ := List.cons.inj ht
      have hxy : x = y ++ "@" ++ String.ofList rest := by rw [← String.toList_inj]; simp [hx]
      have hkey : z = key ⟨String.ofList rest, none, t⟩ := by
        rw [← String.toList_inj, toList_key, hz]; simp [marks, marked]
      rw [hxy, hkey]
      exact .within m y _ t

/-- Labels of one method with one key. -/
theorem overlaps_of_marks (h : marks ⟨m, u, t⟩ = marks ⟨m, u', t'⟩) :
    (⟨m, u, t⟩ : Label) = ⟨m, u', t'⟩ ∨ Overlaps ⟨m, u, t⟩ ⟨m, u', t'⟩ ∨ Overlaps ⟨m, u', t'⟩ ⟨m, u, t⟩ := by
  unfold marks at h
  cases u with
  | none =>
    cases u' with
    | none =>
      obtain rfl : t = t' := marked_injective '@' h
      exact .inl rfl
    | some y => cases t <;> simp [marked] at h
  | some x =>
    cases u' with
    | none => cases t' <;> simp [marked] at h
    | some y =>
      -- one uniquifier begins with the other one
      rcases List.append_eq_append_iff.1 (List.cons.inj h).2 with ⟨rest, hx, ht⟩ | ⟨rest, hx, ht⟩
      · rcases overlaps_of_uniquifiers hx ht m with heq | hover
        · exact .inl heq.symm
        · exact .inr (.inl hover)
      · rcases overlaps_of_uniquifiers hx ht m with heq | hover
        · exact .inl heq
        · exact .inr (.inr hover)

/-- A method that goes on where the other one has ended goes on behind a sign. -/
theorem overlaps_of_longer {c : Char} {rest : List Char} (hm : l'.method.toList = l.method.toList ++ c :: rest)
    (h : l.marks = c :: rest ++ l'.marks) : Overlaps l l' := by
  obtain ⟨m, u, t⟩ := l
  obtain ⟨m', u', t'⟩ := l'
  unfold marks at h
  cases u with
  | some x =>
    obtain ⟨rfl, hx⟩ := List.cons.inj h
    have hm' : m' = m ++ "#" ++ String.ofList rest := by rw [← String.toList_inj]; simp [hm]
    have hrest : key ⟨x, none, t⟩ = key ⟨String.ofList rest, u', t'⟩ := by
      rw [← String.toList_inj, toList_key, toList_key]
      simpa [marks, marked] using hx
    rw [hm']
    exact .uniquifier m x _ t u' t' hrest
  | none =>
    cases t with
    | none => simp [marked] at h
    | some z =>
      obtain ⟨rfl, hz⟩ := List.cons.inj h
      have hm' : m' = m ++ "@" ++ String.ofList rest := by rw [← String.toList_inj]; simp [hm]
      have hkey : z = key ⟨String.ofList rest, u', t'⟩ := by
        rw [← String.toList_inj, toList_key, hz]; simp [marks]
      rw [hm', hkey]
      exact .target m _ u' t'

theorem overlaps_of_extends {rest : List Char} (hm : l'.method.toList = l.method.toList ++ rest)
    (h : l.marks = rest ++ l'.marks) : l = l' ∨ Overlaps l l' ∨ Overlaps l' l := by
  cases rest with
  | nil =>
    obtain ⟨m, u, t⟩ := l
    obtain ⟨m', u', t'⟩ := l'
    rw [List.append_nil] at hm
    obtain rfl : m' = m := String.toList_inj.1 hm
    exact overlaps_of_marks h
  | cons c rest => exact .inr (.inl (overlaps_of_longer hm h))

/-- Two labels have one key exactly if they are the same or overlap. -/
theorem key_eq_iff (l l' : Label) : l.key = l'.key ↔ l = l' ∨ Overlaps l l' ∨ Overlaps l' l := by
  constructor
  · intro h
    have hlist := congrArg String.toList h
    rw [toList_key, toList_key] at hlist
    rcases List.append_eq_append_iff.1 hlist with ⟨rest, hm, hmarks⟩ | ⟨rest, hm, hmarks⟩
    · exact overlaps_of_extends hm hmarks
    · rcases overlaps_of_extends hm hmarks with heq | hover | hover
      · exact .inl heq.symm
      · exact .inr (.inr hover)
      · exact .inr (.inl hover)
  · rintro (rfl | h | h)
    · rfl
    · exact key_eq_of_overlaps h
    · exact (key_eq_of_overlaps h).symm

/-- A label that differs from another one in one part only has another key. -/
theorem eq_of_key_eq (h : l.key = l'.key)
    (htwo : l.method = l'.method ∧ l.uniquifier = l'.uniquifier ∨ l.method = l'.method ∧ l.target = l'.target ∨
      l.uniquifier = l'.uniquifier ∧ l.target = l'.target) : l = l' := by
  obtain ⟨m, u, t⟩ := l
  obtain ⟨m', u', t'⟩ := l'
  have hlist := congrArg String.toList h
  rw [toList_key, toList_key] at hlist
  rcases htwo with ⟨rfl, rfl⟩ | ⟨rfl, rfl⟩ | ⟨rfl, rfl⟩
  · obtain rfl : t = t' := marked_injective '@' (List.append_cancel_left (List.append_cancel_left hlist))
    rfl
  · obtain rfl : u = u' := marked_injective '#' (List.append_cancel_right (List.append_cancel_left hlist))
    rfl
  · obtain rfl : m = m' := String.toList_inj.1 (List.append_cancel_right hlist)
    rfl

/-- A label is the only one with its key exactly if there is no sign in the key at all. -/
theorem only_of_key_iff (l : Label) :
    (∀ other : Label, other.key = l.key → other = l) ↔ '#' ∉ l.key.toList ∧ '@' ∉ l.key.toList := by
  constructor
  · intro honly
    have hplain : (⟨l.key, none, none⟩ : Label) = l :=
      honly _ (by rw [← String.toList_inj, toList_key]; simp [marks, marked])
    constructor
    · intro hmem
      obtain ⟨before, after, hkey⟩ := List.append_of_mem hmem
      have hcut : (⟨String.ofList before, some (String.ofList after), none⟩ : Label) = l :=
        honly _ (by rw [← String.toList_inj, toList_key, hkey]; simp [marks, marked])
      exact absurd (congrArg Label.uniquifier (hplain.trans hcut.symm)) nofun
    · intro hmem
      obtain ⟨before, after, hkey⟩ := List.append_of_mem hmem
      have hcut : (⟨String.ofList before, none, some (String.ofList after)⟩ : Label) = l :=
        honly _ (by rw [← String.toList_inj, toList_key, hkey]; simp [marks, marked])
      exact absurd (congrArg Label.target (hplain.trans hcut.symm)) nofun
  · rintro ⟨hhash, hat⟩ other h
    have bare : ∀ l' : Label, l'.key = l.key → l'.uniquifier = none ∧ l'.target = none := by
      rintro ⟨m, u, t⟩ hkey
      rw [← hkey, toList_key] at hhash hat
      cases u <;> cases t <;> simp_all [marks, marked]
    exact eq_of_key_eq h (.inr (.inr ⟨(bare other h).1.trans (bare l rfl).1.symm,
      (bare other h).2.trans (bare l rfl).2.symm⟩))

end Label

end Breaker

/-! ## Uses of a registry -/

namespace BreakerRegistry

variable {r r' : BreakerRegistry} {key other : String}

/-- What is done with a registry under a key. -/
inductive Uses (key : String) (r : BreakerRegistry) : BreakerRegistry → Prop
  | created (now : Instant) : Uses key r (r.forKey key now).2
  | asked (now : Instant) : Uses key r (r.acquire key now).2.1
  | reported (trial : Bool) (now : Instant) (verdict : Verdict) : Uses key r (r.report ⟨key, trial⟩ now verdict).1
  | released (trial : Bool) : Uses key r (r.release ⟨key, trial⟩)

theorem get?_replace_of_ne (hne : other ≠ key) (r : BreakerRegistry) (b : Breaker) :
    (r.replace key b).get? other = r.get? other := by
  rw [get?_replace]
  cases r.get? other with
  | none => rfl
  | some old => simp [hne]

theorem get?_forKey_of_ne (hne : other ≠ key) (r : BreakerRegistry) (now : Instant) :
    (r.forKey key now).2.get? other = r.get? other := by
  rw [get?_forKey, if_neg hne, Option.or_none]

/-- The breakers of other keys stay as they are. -/
theorem Uses.get?_other (h : Uses key r r') (hne : other ≠ key) : r'.get? other = r.get? other := by
  cases h with
  | created now => exact get?_forKey_of_ne hne r now
  | asked now => exact (get?_replace_of_ne hne _ _).trans (get?_forKey_of_ne hne r now)
  | reported trial now verdict =>
    unfold report
    split
    · rfl
    · exact get?_replace_of_ne hne _ _
  | released trial =>
    unfold release
    split
    · rfl
    · exact get?_replace_of_ne hne _ _

end BreakerRegistry

/-! ## Clients with one registry -/

namespace Builder

open Breaker (Label)

variable {ε : Type}

/-- The label of the breaker of a method. -/
def label (b : Builder ε) (method : String) : Label :=
  let config := b.config.breaker.getD .default
  ⟨method, config.uniquifier, if config.keyByTarget then some b.target.name else none⟩

theorem breakerKey_eq_key (b : Builder ε) (method : String) : b.breakerKey method = (b.label method).key := rfl

/-- Whether something that is done for a method of one client can change the breaker of a method of the other
client, when both use one registry. -/
def Shares (b : Builder ε) (method : String) (b' : Builder ε) (method' : String) : Prop :=
  ∃ r r' : BreakerRegistry, r.Uses (b.breakerKey method) r' ∧
    r'.get? (b'.breakerKey method') ≠ r.get? (b'.breakerKey method')

theorem shares_iff_key_eq (b b' : Builder ε) (m m' : String) :
    b.Shares m b' m' ↔ b.breakerKey m = b'.breakerKey m' := by
  constructor
  · rintro ⟨r, r', huse, hchanged⟩
    by_contra hne
    exact hchanged (huse.get?_other (Ne.symm hne))
  · intro h
    -- the first use creates the breaker of both
    refine ⟨.empty .default, _, .created 0, ?_⟩
    rw [BreakerRegistry.get?_forKey, h, if_pos rfl]
    exact nofun

end Builder

/-- Breakers are shared by overlapping labels. Two labels have one key exactly if they are the same or overlap,
which never happens to labels that differ in one part only, and which some other label does to every label with a
sign in its key; and two clients with one registry share the breakers of two methods exactly in these cases. -/
theorem breaker_sharing (l : Breaker.Label) {ε : Type} (b : Builder ε) (m : String) :
    (∀ l' : Breaker.Label,
      (l.key = l'.key ↔ l = l' ∨ l.Overlaps l' ∨ l'.Overlaps l) ∧
      ((l.method = l'.method ∧ l.uniquifier = l'.uniquifier ∨ l.method = l'.method ∧ l.target = l'.target ∨
        l.uniquifier = l'.uniquifier ∧ l.target = l'.target) → l.key = l'.key → l = l')) ∧
    ((∀ l' : Breaker.Label, l'.key = l.key → l' = l) ↔ '#' ∉ l.key.toList ∧ '@' ∉ l.key.toList) ∧
    ∀ (b' : Builder ε) (m' : String),
      b.Shares m b' m' ↔
        b.label m = b'.label m' ∨ (b.label m).Overlaps (b'.label m') ∨ (b'.label m').Overlaps (b.label m) := by
  refine ⟨fun l' => ⟨l.key_eq_iff l', fun htwo h => Breaker.Label.eq_of_key_eq h htwo⟩,
    l.only_of_key_iff, fun b' m' => ?_⟩
  exact (b.shares_iff_key_eq b' m m').trans ((b.label m).key_eq_iff (b'.label m'))

/-- A uniquifier with an `@` in it stands in the place of a uniquifier and a target: the breaker of the method on
all targets under `blue@orders` is that of the same method on the target `orders` under `blue`, so that a failure
of the one opens the circuit of the other. -/
theorem uniquifier_meets_target :
    let everywhere : Breaker.Label := ⟨"Api#get()", some "blue@orders", none⟩
    let orders : Breaker.Label := ⟨"Api#get()", some "blue", some "orders"⟩
    everywhere ≠ orders ∧ everywhere.key = orders.key ∧
    (let config := { BreakerConfig.default with failureThreshold := 1, minimumCalls := 1 }
     let (_, r, _) := (BreakerRegistry.empty config).acquire everywhere.key 0
     let (r, _) := r.report ⟨everywhere.key, false⟩ 0 .failure
     (r.acquire orders.key 0).1 = none) := by
  decide +kernel

end ResilientClient
