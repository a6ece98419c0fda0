/-
JSON values up to the order of members. Reading a record finds the field of each name wherever it stands
(`Rearranged.record`), so what is read back from a written value does not depend on the order in which the members of
its objects are kept (`RoundTrips`); sorted by name is one such order (`rearranged_normalize`).
-/
import ResilientClient.Config.Json
import Mathlib.Tactic

namespace ResilientClient.Json

/-! ## Other orders -/

/-- The same value up to the order of the members of its objects. -/
inductive Rearranged : Json → Json → Prop where
  | same (v : Json) : Rearranged v v
  /-- The members change for themselves, and then change places. -/
  | object {members members' : List (String × Json)} (change : String × Json → Json)
      (parts : ∀ member ∈ members, Rearranged member.2 (change member))
      (order : members'.Perm (members.map fun member => (member.1, change member))) :
      Rearranged (.object members) (.object members')

/-- A rearranged object is an object again. -/
theorem Rearranged.of_object {members : List (String × Json)} {v : Json} (h : Rearranged (.object members) v) :
    ∃ (members' : List (String × Json)) (change : String × Json → Json), v = .object members' ∧
      (∀ member ∈ members, Rearranged member.2 (change member)) ∧
      members'.Perm (members.map fun member => (member.1, change member)) := by
  cases h with
  | same => exact ⟨members, Prod.snd, rfl, fun member _ => .same _, by simp⟩
  | object change parts order => exact ⟨_, change, rfl, parts, order⟩

theorem Rearranged.eq_null {v : Json} (h : Rearranged v .null) : v = .null := by
  cases h with
  | same => rfl

/-- The value is no object. -/
def IsSimple (v : Json) : Prop := ∀ members, v ≠ .object members

/-- Without members there is nothing to rearrange. -/
theorem Rearranged.eq_of_simple {v w : Json} (h : Rearranged v w) (hv : v.IsSimple) : w = v := by
  cases h with
  | same => rfl
  | object => exact absurd rfl (hv _)

/-- A single member stays where it is. -/
theorem Rearranged.eq_of_single {name : String} {v w : Json} (h : Rearranged (.object [(name, v)]) w)
    (hv : v.IsSimple) : w = .object [(name, v)] := by
  obtain ⟨members, change, rfl, hparts, horder⟩ := h.of_object
  have hsame : change (name, v) = v := (hparts _ (List.mem_singleton_self _)).eq_of_simple hv
  rw [List.map_singleton, hsame] at horder
  rw [List.perm_singleton.1 horder]

/-! ## Sorted members -/

theorem insertMember_perm (name : String) (v : Json) {members : List (String × Json)}
    (hnew : name ∉ members.map Prod.fst) : (insertMember name v members).Perm ((name, v) :: members) := by
  induction members with
  | nil => exact .refl _
  | cons member members ih =>
    obtain ⟨other, w⟩ := member
    rw [List.map_cons, List.mem_cons, not_or] at hnew
    rw [insertMember, if_neg (Ne.symm hnew.1)]
    split
    · exact .refl _
    · exact ((ih hnew.2).cons _).trans (.swap _ _ _)

theorem foldl_insertMember_perm (members sorted : List (String × Json))
    (hnodup : ((members ++ sorted).map Prod.fst).Nodup) :
    (members.foldl (fun sorted member => insertMember member.1 member.2 sorted) sorted).Perm (members ++ sorted) := by
  induction members generalizing sorted with
  | nil => exact .refl _
  | cons member members ih =>
    rw [List.cons_append, List.map_cons, List.nodup_cons] at hnodup
    have hnew : member.1 ∉ sorted.map Prod.fst := fun hmem =>
      hnodup.1 (by rw [List.map_append]; exact List.mem_append_right _ hmem)
    have hinsert := insertMember_perm member.1 member.2 hnew
    have hmiddle : (members ++ member :: sorted).Perm (member :: (members ++ sorted)) := List.perm_middle
    have hwhole : (members ++ insertMember member.1 member.2 sorted).Perm (member :: (members ++ sorted)) :=
      (hinsert.append_left members).trans hmiddle
    refine (ih _ ?_).trans hwhole
    rw [(hwhole.map Prod.fst).nodup_iff, List.map_cons]
    exact List.nodup_cons.2 hnodup

theorem sortMembers_perm {members : List (String × Json)} (hnodup : (members.map Prod.fst).Nodup) :
    (sortMembers members).Perm members := by
  have hperm := foldl_insertMember_perm members [] (by simpa using hnodup)
  rwa [List.append_nil] at hperm

theorem normalizeMembers_eq (members : List (String × Json)) :
    normalizeMembers members = members.map fun member => (member.1, member.2.normalize) := by
  induction members with
  | nil => rfl
  | cons member members ih => rw [normalizeMembers, ih, List.map_cons]

/-- With different names, sorting the members rearranges them. -/
theorem rearranged_normalize {members : List (String × Json)} (hnodup : (members.map Prod.fst).Nodup)
    (hparts : ∀ member ∈ members, member.2.Rearranged member.2.normalize) :
    (Json.object members).Rearranged (Json.object members).normalize := by
  rw [normalize, normalizeMembers_eq]
  refine .object (fun member => member.2.normalize) hparts (sortMembers_perm ?_)
  rwa [List.map_map]

/-! ## Reading back -/

theorem find?_of_mem {members : List (String × Json)} (hnodup : (members.map Prod.fst).Nodup) {name : String} {v : Json}
    (hmem : (name, v) ∈ members) : (members.find? fun field => field.1 == name) = some (name, v) := by
  induction members with
  | nil => exact absurd hmem List.not_mem_nil
  | cons member members ih =>
    rw [List.map_cons, List.nodup_cons] at hnodup
    rcases List.mem_cons.1 hmem with rfl | hmem
    · exact List.find?_cons_of_pos (beq_self_eq_true name)
    · have hother : member.1 ≠ name := fun hsame => hnodup.1 (hsame ▸ List.mem_map_of_mem hmem)
      rw [List.find?_cons_of_neg (by simpa using hother), ih hnodup.2 hmem]

/-- What is written is read back, in any order of members, exactly from the values that fit. -/
def RoundTrips {α : Type} (write : α → Json) (read : Json → Option α) (fits : α → Prop) : Prop :=
  ∀ a v, (write a).Rearranged v → (read v = some a ↔ fits a)

section RoundTrips

variable {α : Type} {write : α → Json} {read : Json → Option α} {fits : α → Prop}

theorem RoundTrips.of_simple (hsimple : ∀ a, (write a).IsSimple) (h : ∀ a, read (write a) = some a ↔ fits a) :
    RoundTrips write read fits := by
  intro a v hv
  rw [hv.eq_of_simple (hsimple a), h a]

/-- Nothing is written as `null`, and read back as nothing. -/
theorem RoundTrips.nullable (h : RoundTrips write read fits) (hnull : ∀ a, write a ≠ .null) :
    RoundTrips (ofOption write) (nullable? read) (fun o => ∀ a ∈ o, fits a) := by
  intro o v hv
  cases o with
  | none =>
    obtain rfl : v = .null := hv.eq_of_simple nofun
    simp [nullable?]
  | some a =>
    have hread : nullable? read v = (read v).map some := by
      unfold nullable?
      split
      · exact absurd hv.eq_null (hnull a)
      · rfl
    rw [hread]
    simp [← h a v hv]

theorem RoundTrips.fieldOr (h : RoundTrips write read fits) {a : α} {name : String} {v : Json}
    {members : List (String × Json)} (hnodup : (members.map Prod.fst).Nodup) (hmem : (name, v) ∈ members)
    (hv : (write a).Rearranged v) (default : α) : Json.fieldOr members name default read = some a ↔ fits a := by
  rw [Json.fieldOr, find?_of_mem hnodup hmem]
  exact h a v hv

end RoundTrips

/-- In a rearranged record each field is read as it was written. -/
theorem Rearranged.record {written : List (String × Json)} {v : Json} (hv : (Json.object written).Rearranged v)
    {names : List String} (hnames : written.map Prod.fst = names) (hnodup : names.Nodup) :
    ∃ fields, v.fields? names = some fields ∧
      ∀ {α : Type} {write : α → Json} {read : Json → Option α} {fits : α → Prop} {a : α} {name : String} {default : α},
        RoundTrips write read fits → (name, write a) ∈ written →
          (Json.fieldOr fields name default read = some a ↔ fits a) := by
  obtain ⟨fields, change, rfl, hparts, horder⟩ := hv.of_object
  have hsame : (fields.map Prod.fst).Perm names := by
    simpa [Function.comp_def, ← hnames] using horder.map Prod.fst
  have hdistinct : (fields.map Prod.fst).Nodup := hsame.nodup_iff.2 hnodup
  refine ⟨fields, ?_, fun hread hmem => ?_⟩
  · have hknown : (fields.map Prod.fst).all names.contains = true :=
      List.all_eq_true.2 fun name hname => List.contains_iff_mem.2 (hsame.mem_iff.1 hname)
    simp only [fields?, hknown, hdistinct, decide_true, Bool.and_self, if_true]
  · exact hread.fieldOr hdistinct (horder.mem_iff.2 (List.mem_map.2 ⟨_, hmem, rfl⟩)) (hparts _ hmem) _

end ResilientClient.Json
