/-
The pairs of a query. A query is read by splitting it at the ampersands, each piece at its first equals sign, and
decoding both sides. From the query of a method this gives the declared pairs, grouped by name, and then those of
the query map, whatever the names and the values hold (`readPairs_query`).
-/
import ResilientClient.Proofs.Expansion.Declared
import ResilientClient.Proofs.Text.Written

namespace ResilientClient

/-! ## Reading -/

namespace Endpoint

/-- Reads a piece of a query: what stands in front of the first equals sign, and what stands behind it. -/
def readPair (piece : List Char) : Option (String × String) :=
  match Http.Uri.splitAt '=' piece with
  | (_, none) => none
  | (name, some value) =>
    (Text.Percent.decode name).bind fun name => (Text.Percent.decode value).map fun value => (name, value)

/-- Reads a query: the pieces between the ampersands, and none if there is no text. -/
def readPairs (query : String) : Option (List (String × String)) :=
  if query.isEmpty then some [] else (query.toList.splitOn '&').mapM readPair

/-- The written form of a pair. -/
def written (pair : String × String) : String :=
  Text.Percent.encode pair.1 ++ "=" ++ Text.Percent.encode pair.2

theorem toList_written (pair : String × String) :
    (written pair).toList = (Text.Percent.encode pair.1).toList ++ '=' :: (Text.Percent.encode pair.2).toList := by
  rw [written, String.append_assoc, String.toList_append, String.toList_append]
  rfl

theorem readPair_written (pair : String × String) : readPair (written pair).toList = some pair := by
  have hname : ∀ c ∈ (Text.Percent.encode pair.1).toList, (c != '=') = true := by
    intro c hc
    rw [bne_iff_ne]
    rintro rfl
    exact absurd (Text.Percent.plain_of_mem_encode hc) (by decide)
  have hsplit : Http.Uri.splitAt '=' (written pair).toList =
      ((Text.Percent.encode pair.1).toList, some (Text.Percent.encode pair.2).toList) := by
    unfold Http.Uri.splitAt
    rw [toList_written, List.dropWhile_append_of_pos hname, List.takeWhile_append_of_pos hname]
    simp
  unfold readPair
  rw [hsplit]
  dsimp only
  rw [Text.Percent.decode_encode, Text.Percent.decode_encode]
  rfl

theorem ampersand_not_mem_written (pair : String × String) : '&' ∉ (written pair).toList := by
  rw [toList_written, List.mem_append, List.mem_cons]
  rintro (hname | hsign | hvalue)
  · exact absurd (Text.Percent.plain_of_mem_encode hname) (by decide)
  · exact absurd hsign (by decide)
  · exact absurd (Text.Percent.plain_of_mem_encode hvalue) (by decide)

theorem mapM_readPair (pairs : List (String × String)) :
    (pairs.map fun pair => (written pair).toList).mapM readPair = some pairs := by
  induction pairs with
  | nil => rfl
  | cons pair pairs ih =>
    rw [List.map_cons, List.mapM_cons, readPair_written, ih]
    rfl

/-- Written pairs are read again. -/
theorem readPairs_join (pairs : List (String × String)) :
    readPairs (Text.join "&" (pairs.map written)) = some pairs := by
  cases pairs with
  | nil => rfl
  | cons first rest =>
    have hlist : (Text.join "&" ((first :: rest).map written)).toList =
        ['&'].intercalate ((first :: rest).map fun pair => (written pair).toList) := by
      rw [Text.toList_join, List.map_map]
      rfl
    have hpieces : ∀ piece ∈ (first :: rest).map fun pair => (written pair).toList, '&' ∉ piece := by
      intro piece hpiece
      obtain ⟨pair, -, rfl⟩ := List.mem_map.1 hpiece
      exact ampersand_not_mem_written pair
    have hsome : ¬ (Text.join "&" ((first :: rest).map written)).isEmpty = true := by
      rw [String.isEmpty_iff, ← String.toList_eq_nil_iff, hlist]
      -- the first pair has at least its equals sign
      cases rest <;> simp [toList_written]
    unfold readPairs
    rw [if_neg hsome, hlist, List.splitOn_intercalate '&' hpieces (by simp), mapM_readPair]

/-! ## Declared pairs -/

namespace Draft

/-- A template is one placeholder and nothing else, and this argument alone is declared to feed it. -/
def Draws (steps : List Step) (template : String) (index : Nat) : Prop :=
  ∃ placeholder, (Template.compile template).chunks = [.placeholder placeholder] ∧
    ∀ other, .param other placeholder ∈ steps ↔ other = index

/-- An argument is one value or a list of values. -/
inductive Holds : Argument → List String → Prop where
  | value (text : String) : Holds (.value text) [text]
  | values (texts : List String) : Holds (.values texts) texts

/-- The pairs that are declared by calls with a name and a template each: the names in the order of their first
call, the templates of a name in the order of the calls, the values of a template in their own order. -/
def declaredBy (calls : List (String × String)) (valuesOf : String → List String) : List (String × String) :=
  (calls.map Prod.fst).eraseDups.flatMap fun name =>
    (calls.filter (·.1 = name)).flatMap fun call => (valuesOf call.2).map fun value => (name, value)

/-- The pairs of one name, among those that are declared by the calls with a name. -/
theorem filter_group (calls : List (String × String)) (valuesOf : String → List String) (name other : String) :
    ((calls.filter (·.1 = other)).flatMap fun call => (valuesOf call.2).map fun value => (other, value)).filter
        (·.1 = name) =
      if other = name then (calls.filter (·.1 = name)).flatMap fun call =>
        (valuesOf call.2).map fun value => (name, value) else [] := by
  have hnamed : ∀ pair ∈ (calls.filter (·.1 = other)).flatMap fun call =>
      (valuesOf call.2).map fun value => (other, value), pair.1 = other := by
    intro pair hpair
    obtain ⟨call, -, hvalue⟩ := List.mem_flatMap.1 hpair
    obtain ⟨value, -, rfl⟩ := List.mem_map.1 hvalue
    rfl
  split
  · rename_i hsame
    subst hsame
    exact List.filter_eq_self.2 fun pair hpair => decide_eq_true (hnamed pair hpair)
  · rename_i hother
    exact List.filter_eq_nil_iff.2 fun pair hpair hpicked =>
      hother ((hnamed pair hpair).symm.trans (of_decide_eq_true hpicked))

/-- Within a name no pair is lost, added or moved. -/
theorem filter_declaredBy (calls : List (String × String)) (valuesOf : String → List String) (name : String) :
    (declaredBy calls valuesOf).filter (·.1 = name) =
      (calls.filter (·.1 = name)).flatMap fun call => (valuesOf call.2).map fun value => (name, value) := by
  unfold declaredBy
  rw [List.filter_flatMap, List.flatMap_congr fun other _ => filter_group calls valuesOf name other,
    Grouping.flatMap_of_nodup _ _ (Grouping.nodup_eraseDups _)]
  split
  · rfl
  · rename_i hunnamed
    have hnone : calls.filter (·.1 = name) = [] := by
      rw [List.filter_eq_nil_iff]
      intro call hcall hsame
      rw [List.mem_eraseDups, ← of_decide_eq_true hsame] at hunnamed
      exact hunnamed (List.mem_map_of_mem hcall)
    rw [hnone]
    rfl

variable {key verb path : String} {steps : List Step} {e : Endpoint} {args : List Argument}
  {valuesOf : String → List String}

/-- A template that draws on one argument is written once for each value of this argument. -/
theorem expandValues_of_draws (hbuild : (declare key verb path steps).build = .ok e) {template : String}
    {index : Nat} {argument : Argument} {values : List String} (hdraws : Draws steps template index)
    (hargument : args[index]? = some argument) (hvalues : Holds argument values) :
    (Template.compile template).expandValues (e.bindings args) .percent = values.map Text.Percent.encode := by
  obtain ⟨placeholder, hchunks, hsole⟩ := hdraws
  obtain ⟨-, hplaceholders, -⟩ := build_eq hbuild
  have hbound : (e.bindings args).values? placeholder = some values := by
    refine values?_of_sole index ?_ (fun entry hentry hname => ?_) ?_
    · rw [hplaceholders]
      exact mem_placeholders_declare.2 ((hsole index).2 rfl)
    · rw [hplaceholders] at hentry
      exact (hsole entry.1).1 (mem_placeholders_declare.1 ⟨entry, hentry, rfl, hname⟩)
    · rw [hargument]
      cases hvalues <;> rfl
  unfold Template.expandValues
  rw [hchunks]
  dsimp only
  rw [hbound]
  rfl

/-- Each template of a query parameter draws on one argument, with these values. -/
def Bound (steps : List Step) (args : List Argument) (valuesOf : String → List String) : Prop :=
  ∀ name template, .query name template ∈ steps → ∃ index argument, Draws steps template index ∧
    args[index]? = some argument ∧ Holds argument (valuesOf template)

theorem declaredPairs_eq (hbuild : (declare key verb path steps).build = .ok e) (hbound : Bound steps args valuesOf) :
    e.declaredPairs (e.bindings args) = (declaredBy (steps.filterMap Step.query?) valuesOf).map written := by
  obtain ⟨hqueries, -, -⟩ := build_eq hbuild
  unfold declaredPairs declaredBy
  rw [hqueries, queries_declare, List.map_map, List.flatMap_map, List.map_flatMap]
  refine List.flatMap_congr fun name _ => ?_
  simp only [Function.comp_apply, List.flatMap_map, List.map_flatMap, List.map_map]
  refine List.flatMap_congr fun call hcall => ?_
  obtain ⟨index, argument, hdraws, hargument, hvalues⟩ :=
    hbound call.1 call.2 (mem_query?.1 (List.mem_filter.1 hcall).1)
  rw [expandValues_of_draws hbuild hdraws hargument hvalues, List.map_map]
  rfl

/-- The query of a declared method is read as the declared pairs, which keep their order within each name, and then
the pairs of the query map. -/
theorem readPairs_query (hbuild : (declare key verb path steps).build = .ok e) (hbound : Bound steps args valuesOf) :
    readPairs (e.query args) = some (declaredBy (steps.filterMap Step.query?) valuesOf ++
      (mapEntries args e.queryMapIndex).flatMap fun entry => entry.2.map fun value => (entry.1, value)) ∧
    ∀ name, (declaredBy (steps.filterMap Step.query?) valuesOf).filter (·.1 = name) =
      ((steps.filterMap Step.query?).filter (·.1 = name)).flatMap fun call =>
        (valuesOf call.2).map fun value => (name, value) := by
  refine ⟨?_, filter_declaredBy _ _⟩
  have hmapped : mapPairs (mapEntries args e.queryMapIndex) = ((mapEntries args e.queryMapIndex).flatMap fun entry =>
      entry.2.map fun value => (entry.1, value)).map written := rfl
  unfold Endpoint.query
  rw [declaredPairs_eq hbuild hbound, hmapped, ← List.map_append, readPairs_join]

/-- Two names, one of them empty and one of them declared twice, and a query map. -/
def mixedCalls : List Step :=
  [.query "a&b" (Template.braced "p"), .param 0 "p", .query "" (Template.braced "q"), .queryMap 2,
    .query "a&b" (Template.braced "q"), .param 1 "q"]

def mixedArgs : List Argument := [.value "1=2&3", .values ["", "x+y"], .map [("m", []), ("a&b", ["z", "%"])]]

def mixedValues (template : String) : List String :=
  if template = Template.braced "p" then ["1=2&3"] else ["", "x+y"]

theorem bound_mixedCalls : Bound mixedCalls mixedArgs mixedValues := by
  have hfirst : Draws mixedCalls (Template.braced "p") 0 :=
    ⟨"p", by decide +kernel, fun other => by simp [mixedCalls]⟩
  have hsecond : Draws mixedCalls (Template.braced "q") 1 :=
    ⟨"q", by decide +kernel, fun other => by simp [mixedCalls]⟩
  intro name template hmem
  simp only [mixedCalls, List.mem_cons, List.not_mem_nil, Step.query.injEq, reduceCtorEq, false_or, or_false] at hmem
  rcases hmem with ⟨rfl, rfl⟩ | ⟨rfl, rfl⟩ | ⟨rfl, rfl⟩
  · exact ⟨0, _, hfirst, rfl, .value _⟩
  · exact ⟨1, _, hsecond, rfl, .values _⟩
  · exact ⟨1, _, hsecond, rfl, .values _⟩

theorem readPairs_query_mixed : ∃ e, (declare "Api#find()" "GET" "/" mixedCalls).build = .ok e ∧
    readPairs (e.query mixedArgs) =
      some [("a&b", "1=2&3"), ("a&b", ""), ("a&b", "x+y"), ("", ""), ("", "x+y"), ("a&b", "z"), ("a&b", "%")] := by
  have hbuild : ∃ e, (declare "Api#find()" "GET" "/" mixedCalls).build = .ok e := ⟨_, rfl⟩
  obtain ⟨e, hbuild⟩ := hbuild
  have hmap : e.queryMapIndex = some 2 := (build_eq hbuild).2.2
  have hread := (readPairs_query hbuild bound_mixedCalls).1
  rw [hmap] at hread
  exact ⟨e, hbuild, hread⟩

end Draft

end Endpoint

end ResilientClient
