/-
Declarations, call by call. Whatever the order of the calls, the query parameters are grouped by name in the order
of their first declaration (`queries_declare`), and a placeholder has the values of the last argument that is
declared to feed it and has any (`values?_bindings`).
-/
import ResilientClient.Expansion
import Mathlib.Tactic

namespace ResilientClient

/-! ## Groups -/

namespace Grouping

variable {κ α : Type} [DecidableEq κ]

theorem eraseDups_concat (keys : List κ) (key : κ) :
    (keys ++ [key]).eraseDups = keys.eraseDups ++ if key ∈ keys then [] else [key] := by
  rw [List.eraseDups_append, List.cons_removeAll, List.nil_removeAll]
  by_cases hmem : key ∈ keys
  · simp [hmem]
  · simp [hmem, List.eraseDups_cons]

theorem nodup_eraseDups (keys : List κ) : keys.eraseDups.Nodup := by
  induction keys using List.reverseRecOn with
  | nil => exact List.nodup_nil
  | append_singleton keys key ih =>
    rw [eraseDups_concat]
    split
    · rwa [List.append_nil]
    · rename_i hnew
      rw [List.nodup_append_comm]
      exact List.nodup_cons.2 ⟨fun hmem => hnew (List.mem_eraseDups.1 hmem), ih⟩

/-- Of different keys, one contributes its group. -/
theorem flatMap_of_nodup (key : κ) (group : List α) {keys : List κ} (hkeys : keys.Nodup) :
    (keys.flatMap fun other => if other = key then group else []) = if key ∈ keys then group else [] := by
  induction keys with
  | nil => rfl
  | cons other keys ih =>
    obtain ⟨hnew, hrest⟩ := List.nodup_cons.1 hkeys
    rw [List.flatMap_cons, ih hrest]
    by_cases hsame : other = key
    · subst hsame
      simp [hnew]
    · simp [hsame, Ne.symm hsame]

theorem update_map (change : List α → List α) (key : κ) (values : κ → List α) {keys : List κ} (hkeys : keys.Nodup) :
    update (· == ·) change key (keys.map fun k => (k, values k)) =
      if key ∈ keys then keys.map fun k => (k, if k = key then change (values k) else values k)
      else keys.map (fun k => (k, values k)) ++ [(key, change [])] := by
  induction keys with
  | nil => rfl
  | cons k keys ih =>
    obtain ⟨hk, hrest⟩ := List.nodup_cons.1 hkeys
    rw [List.map_cons, update]
    by_cases hsame : k = key
    · -- the key does not occur again
      subst hsame
      have hothers : ∀ other ∈ keys, (other, values other) =
          (other, if other = k then change (values other) else values other) := by
        intro other hother
        have hne : other ≠ k := fun hsame => hk (hsame ▸ hother)
        rw [if_neg hne]
      simp [List.map_congr_left hothers]
    · rw [if_neg (by simpa using hsame), ih hrest]
      have hmem : key ∈ k :: keys ↔ key ∈ keys := by simp [Ne.symm hsame]
      simp only [hmem, List.map_cons, if_neg hsame]
      split <;> rfl

/-- Pairs that are added one after the other are grouped by key, the keys in the order of their first occurrence
and the values of a key in the order in which they were added. -/
theorem foldl_add (pairs : List (κ × α)) :
    pairs.foldl (fun groups pair => add (· == ·) pair.1 pair.2 groups) [] =
      (pairs.map Prod.fst).eraseDups.map fun k => (k, (pairs.filter (·.1 = k)).map Prod.snd) := by
  induction pairs using List.reverseRecOn with
  | nil => rfl
  | append_singleton pairs pair ih =>
    rw [List.foldl_append, ih, List.foldl_cons, List.foldl_nil, add, update_map _ _ _ (nodup_eraseDups _),
      List.map_append, List.map_singleton, eraseDups_concat]
    simp only [List.mem_eraseDups]
    split
    · rw [List.append_nil]
      refine List.map_congr_left fun k _ => ?_
      by_cases hk : k = pair.1
      · simp [hk]
      · simp [hk, Ne.symm hk]
    · rename_i hnew
      have hothers : ∀ k ∈ (pairs.map Prod.fst).eraseDups, pair.1 ≠ k := by
        rintro k hk rfl
        exact hnew (List.mem_eraseDups.1 hk)
      have hnone : pairs.filter (·.1 = pair.1) = [] := by
        rw [List.filter_eq_nil_iff]
        intro other hother hsame
        rw [← of_decide_eq_true hsame] at hnew
        exact hnew (List.mem_map_of_mem hother)
      rw [List.map_append, List.map_singleton]
      refine congrArg₂ _ (List.map_congr_left fun k hk => ?_) ?_
      · simp [hothers k hk]
      · simp [hnone]

/-- What is grouped is what was added. -/
theorem mem_foldl_add {pairs : List (κ × α)} {key : κ} {value : α} :
    (∃ group ∈ pairs.foldl (fun groups pair => add (· == ·) pair.1 pair.2 groups) [], group.1 = key ∧
      value ∈ group.2) ↔ (key, value) ∈ pairs := by
  rw [foldl_add]
  constructor
  · rintro ⟨group, hgroup, rfl, hvalue⟩
    obtain ⟨k, -, rfl⟩ := List.mem_map.1 hgroup
    obtain ⟨pair, hfiltered, rfl⟩ := List.mem_map.1 hvalue
    obtain ⟨hpair, hkey⟩ := List.mem_filter.1 hfiltered
    rw [← of_decide_eq_true hkey]
    exact hpair
  · intro hmem
    refine ⟨_, List.mem_map_of_mem (List.mem_eraseDups.2 (List.mem_map_of_mem hmem)), rfl, ?_⟩
    exact List.mem_map_of_mem (f := Prod.snd) (List.mem_filter.2 ⟨hmem, by simp⟩)

end Grouping

/-! ## Calls -/

namespace Endpoint.Draft

/-- One call that adds to a declaration. -/
inductive Step where
  | query (name template : String)
  | header (name template : String)
  | param (index : Nat) (name : String)
  | body (index : Nat)
  | queryMap (index : Nat)
  | headerMap (index : Nat)
  | returning (shape : ReturnShape)
deriving DecidableEq

/-- The declaration after a call. -/
def Step.apply (d : Draft) : Step → Draft
  | .query name template => d.query name template
  | .header name template => d.header name template
  | .param index name => d.param index name
  | .body index => d.body index
  | .queryMap index => d.queryMap index
  | .headerMap index => d.headerMap index
  | .returning shape => d.returning shape

/-- The name and the template that a call declares as a query parameter. -/
def Step.query? : Step → Option (String × String)
  | .query name template => some (name, template)
  | _ => none

/-- The argument that a call lets feed a placeholder. -/
def Step.param? : Step → Option (Nat × String)
  | .param index name => some (index, name)
  | _ => none

/-- What is declared by a sequence of calls. -/
def declare (key verb path : String) (steps : List Step) : Draft :=
  steps.foldl Step.apply { key, verb, path }

theorem mem_query? {steps : List Step} {name template : String} :
    (name, template) ∈ steps.filterMap Step.query? ↔ .query name template ∈ steps := by
  rw [List.mem_filterMap]
  constructor
  · rintro ⟨step, hstep, hquery⟩
    cases step <;> cases hquery
    exact hstep
  · exact fun h => ⟨_, h, rfl⟩

theorem mem_param? {steps : List Step} {index : Nat} {name : String} :
    (index, name) ∈ steps.filterMap Step.param? ↔ .param index name ∈ steps := by
  rw [List.mem_filterMap]
  constructor
  · rintro ⟨step, hstep, hparam⟩
    cases step <;> cases hparam
    exact hstep
  · exact fun h => ⟨_, h, rfl⟩

theorem queries_foldl (d : Draft) (steps : List Step) : (steps.foldl Step.apply d).queries =
    (steps.filterMap Step.query?).foldl (fun groups pair => Grouping.add (· == ·) pair.1 pair.2 groups) d.queries := by
  induction steps generalizing d with
  | nil => rfl
  | cons step steps ih =>
    rw [List.foldl_cons, ih]
    cases step <;> rfl

theorem placeholders_foldl (d : Draft) (steps : List Step) : (steps.foldl Step.apply d).placeholders =
    (steps.filterMap Step.param?).foldl (fun groups pair => Grouping.add (· == ·) pair.1 pair.2 groups)
      d.placeholders := by
  induction steps generalizing d with
  | nil => rfl
  | cons step steps ih =>
    rw [List.foldl_cons, ih]
    cases step <;> rfl

/-- The query parameters are grouped by name, the names in the order of their first declaration and the templates
of a name in the order of the calls. -/
theorem queries_declare (key verb path : String) (steps : List Step) :
    (declare key verb path steps).queries = ((steps.filterMap Step.query?).map Prod.fst).eraseDups.map fun name =>
      (name, ((steps.filterMap Step.query?).filter (·.1 = name)).map Prod.snd) := by
  rw [declare, queries_foldl, Grouping.foldl_add]

theorem mem_placeholders_declare {key verb path : String} {steps : List Step} {index : Nat} {name : String} :
    (∃ entry ∈ (declare key verb path steps).placeholders, entry.1 = index ∧ name ∈ entry.2) ↔
      .param index name ∈ steps := by
  rw [declare, placeholders_foldl, Grouping.mem_foldl_add, mem_param?]

theorem build_eq {d : Draft} {e : Endpoint} (h : d.build = .ok e) :
    e.queries = d.queries.map (fun entry => (entry.1, entry.2.map Template.compile)) ∧
      e.placeholders = d.placeholders ∧ e.queryMapIndex = d.queryMapIndex := by
  unfold build at h
  split at h
  · cases h
  · split at h
    · cases h
    · cases h
      exact ⟨rfl, rfl, rfl⟩

end Endpoint.Draft

/-! ## Bindings -/

theorem Bindings.values?_bind (bindings : Bindings) (name other : String) (values : List String) :
    (bindings.bind other values).values? name = if other = name then some values else bindings.values? name := by
  unfold Bindings.bind Bindings.values?
  rw [List.find?_cons]
  by_cases hsame : other = name
  · simp [hsame]
  · have hdiffers : (other == name) = false := by simpa using hsame
    simp only [hdiffers, if_neg hsame]

theorem Bindings.values?_foldl_bind (bindings : Bindings) (name : String) (names values : List String) :
    (names.foldl (fun bindings name => bindings.bind name values) bindings).values? name =
      if name ∈ names then some values else bindings.values? name := by
  induction names generalizing bindings with
  | nil => rfl
  | cons other names ih =>
    rw [List.foldl_cons, ih, Bindings.values?_bind]
    by_cases hmem : name ∈ names
    · simp [hmem]
    · by_cases hsame : other = name
      · simp [hsame]
      · simp [hmem, hsame, Ne.symm hsame]

namespace Endpoint

/-- The values that an entry gives to a placeholder. -/
def given? (args : List Argument) (name : String) (entry : Nat × List String) : Option (List String) :=
  if name ∈ entry.2 then args[entry.1]?.bind Argument.placeholderValues? else none

theorem values?_bindArgument (args : List Argument) (bindings : Bindings) (entry : Nat × List String)
    (name : String) :
    (bindArgument args bindings entry).values? name = (given? args name entry).or (bindings.values? name) := by
  unfold bindArgument given?
  cases args[entry.1]?.bind Argument.placeholderValues? with
  | none => rw [ite_self, Option.none_or]
  | some values =>
    dsimp only
    rw [Bindings.values?_foldl_bind]
    split <;> rfl

/-- A placeholder has the values of the last declared argument that gives it any. -/
theorem values?_bindings (e : Endpoint) (args : List Argument) (name : String) :
    (e.bindings args).values? name = e.placeholders.reverse.findSome? (given? args name) := by
  unfold bindings
  induction e.placeholders using List.reverseRecOn with
  | nil => rfl
  | append_singleton entries entry ih =>
    rw [List.foldl_append, List.foldl_cons, List.foldl_nil, values?_bindArgument, ih, List.reverse_concat,
      List.findSome?_cons]
    cases given? args name entry <;> rfl

/-- A placeholder that one argument alone feeds has the values of this argument. -/
theorem values?_of_sole {e : Endpoint} {args : List Argument} {name : String} (index : Nat) {values : List String}
    (hfed : ∃ entry ∈ e.placeholders, entry.1 = index ∧ name ∈ entry.2)
    (halone : ∀ entry ∈ e.placeholders, name ∈ entry.2 → entry.1 = index)
    (hvalues : args[index]?.bind Argument.placeholderValues? = some values) :
    (e.bindings args).values? name = some values := by
  have hgiven : ∀ entry ∈ e.placeholders, name ∈ entry.2 → given? args name entry = some values := by
    intro entry hentry hname
    rw [given?, if_pos hname, halone entry hentry hname, hvalues]
  rw [values?_bindings]
  obtain ⟨entry, hentry, -, hname⟩ := hfed
  cases hfound : e.placeholders.reverse.findSome? (given? args name) with
  | none =>
    have hnone := List.findSome?_eq_none_iff.1 hfound entry (List.mem_reverse.2 hentry)
    exact (hnone.symm.trans (hgiven entry hentry hname))
  | some found =>
    obtain ⟨other, hother, hother'⟩ := List.exists_of_findSome?_eq_some hfound
    have hfeeds : name ∈ other.2 := by
      unfold given? at hother'
      split at hother'
      · assumption
      · cases hother'
    rw [← hother', hgiven other (List.mem_reverse.1 hother) hfeeds]

end Endpoint

end ResilientClient
