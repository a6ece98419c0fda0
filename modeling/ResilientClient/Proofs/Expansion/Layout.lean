/-
The layout of a URL. How many values each placeholder has decides which stretches of the URL are fixed text and
where the values stand; what the values are only fills their places, with their encoded forms. So arguments that
bind the same placeholders to as many values, none of them empty, give URLs with the same delimiters
(`same_structure`).
-/
import ResilientClient.Proofs.Expansion.Address
import ResilientClient.Proofs.Text.Written

namespace ResilientClient

/-! ## Values -/

namespace Bindings

/-- How many values a placeholder has, if it is bound. -/
def counts (bindings : Bindings) (name : String) : Option Nat := (bindings.values? name).map List.length

/-- A value of a placeholder. -/
def valueAt (bindings : Bindings) (name : String) (index : Nat) : String :=
  ((bindings.values? name).getD [])[index]?.getD ""

/-- No placeholder is bound to an empty text. -/
def Full (bindings : Bindings) : Prop := ∀ name values, bindings.values? name = some values → "" ∉ values

theorem map_valueAt {bindings : Bindings} {name : String} {values : List String}
    (h : bindings.values? name = some values) :
    (List.range values.length).map (bindings.valueAt name) = values := by
  refine List.ext_getElem (by simp) fun index _ hindex => ?_
  simp [valueAt, h, hindex]

theorem exists_valueAt {bindings : Bindings} {name : String} {index n : Nat} (hcounts : bindings.counts name = some n)
    (hindex : index < n) : ∃ values, bindings.values? name = some values ∧
      values[index]? = some (bindings.valueAt name index) := by
  unfold counts at hcounts
  cases hvalues : bindings.values? name with
  | none => rw [hvalues] at hcounts; cases hcounts
  | some values =>
    rw [hvalues] at hcounts
    cases hcounts
    exact ⟨values, rfl, by simp [valueAt, hvalues, hindex]⟩

end Bindings

namespace Endpoint

/-! ## Layouts -/

/-- A stretch of a URL: text that stands there whatever the values are, or the place of a value. -/
inductive Piece where
  | fixed (text : String)
  | value (name : String) (index : Nat)
deriving DecidableEq, Repr

/-- What stands at a piece. -/
def Piece.span (values : String → Nat → String) : Piece → List Char
  | .fixed text => text.toList
  | .value name index => (Text.Percent.encode (values name index)).toList

/-- The stretches of a text in order. -/
abbrev Layout := List Piece

namespace Layout

/-- The text of a layout with these values. -/
def write (values : String → Nat → String) (layout : Layout) : List Char := layout.flatMap (Piece.span values)

/-- Layouts with a separator between neighbours. -/
def joined (separator : String) (layouts : List Layout) : Layout := [Piece.fixed separator].intercalate layouts

/-- The places of all values of a placeholder. -/
def places (name : String) (n : Nat) : List Layout := (List.range n).map fun index => [.value name index]

theorem write_append (values : String → Nat → String) (layout layout' : Layout) :
    write values (layout ++ layout') = write values layout ++ write values layout' :=
  List.flatMap_append

theorem write_joined (values : String → Nat → String) (separator : String) (layouts : List Layout) :
    write values (joined separator layouts) = separator.toList.intercalate (layouts.map (write values)) := by
  unfold joined
  induction layouts with
  | nil => rfl
  | cons layout layouts ih =>
    cases layouts with
    | nil => rw [List.intercalate_singleton]; exact List.intercalate_singleton.symm
    | cons next layouts =>
      have hseparator : write values [.fixed separator] = separator.toList := List.append_nil _
      rw [List.intercalate_cons_cons, write_append, write_append, ih, hseparator]
      exact List.intercalate_cons_cons.symm

theorem mem_joined {separator : String} {layouts : List Layout} {name : String} {index : Nat}
    (h : .value name index ∈ joined separator layouts) : ∃ layout ∈ layouts, .value name index ∈ layout := by
  unfold joined at h
  induction layouts with
  | nil => cases h
  | cons layout layouts ih =>
    cases layouts with
    | nil =>
      rw [List.intercalate_singleton] at h
      exact ⟨layout, .head _, h⟩
    | cons next layouts =>
      rw [List.intercalate_cons_cons, List.mem_append, List.mem_append] at h
      rcases h with (hlayout | hseparator) | hrest
      · exact ⟨layout, .head _, hlayout⟩
      · exact absurd hseparator (by simp)
      · obtain ⟨other, hother, hmem⟩ := ih hrest
        exact ⟨other, .tail _ hother, hmem⟩

theorem mem_places {name other : String} {n index : Nat} {layout : Layout} (hlayout : layout ∈ places other n)
    (h : .value name index ∈ layout) : name = other ∧ index < n := by
  obtain ⟨place, hplace, rfl⟩ := List.mem_map.1 hlayout
  cases List.mem_singleton.1 h
  exact ⟨rfl, List.mem_range.1 hplace⟩

theorem write_places {bindings : Bindings} {name : String} {values : List String}
    (h : bindings.values? name = some values) : (places name values.length).map (write bindings.valueAt) =
      values.map fun value => (Text.Percent.encode value).toList := by
  conv_rhs => rw [← Bindings.map_valueAt h]
  unfold places
  rw [List.map_map, List.map_map]
  refine List.map_congr_left fun index _ => ?_
  simp [write, Piece.span]

end Layout

/-! ## Layouts of templates -/

section Templates

variable (counts : String → Option Nat)

/-- The layout of a chunk. -/
def chunkLayout : Template.Chunk → Layout
  | .literal text => [.fixed text]
  | .placeholder name =>
    match counts name with
    | some n => Layout.joined "," (Layout.places name n)
    | none => [.fixed (Template.braced name)]

/-- The layout of an expanded template. -/
def templateLayout (t : Template) : Layout := t.chunks.flatMap (chunkLayout counts)

/-- The layouts of the expansions of a template for a field that may repeat. -/
def valueLayouts (t : Template) : List Layout :=
  match t.chunks with
  | [.placeholder name] =>
    match counts name with
    | some n => Layout.places name n
    | none => [templateLayout counts t]
  | _ => [templateLayout counts t]

/-- The layout of the declared query. -/
def queryLayout (e : Endpoint) : Layout :=
  Layout.joined "&" (e.queries.flatMap fun entry => entry.2.flatMap fun template =>
    (valueLayouts counts template).map (.fixed (Text.Percent.encode entry.1 ++ "=") :: ·))

end Templates

theorem write_chunkLayout (bindings : Bindings) (chunk : Template.Chunk) :
    (chunkLayout bindings.counts chunk).write bindings.valueAt = (chunk.expand bindings .percent).toList := by
  cases chunk with
  | literal text => exact List.append_nil _
  | placeholder name =>
    cases hvalues : bindings.values? name with
    | none =>
      simp only [chunkLayout, Template.Chunk.expand, Bindings.counts, hvalues, Option.map_none]
      exact List.append_nil _
    | some values =>
      simp only [chunkLayout, Template.Chunk.expand, Bindings.counts, hvalues, Option.map_some]
      rw [Layout.write_joined, Layout.write_places hvalues, Text.toList_join, List.map_map]
      rfl

theorem write_templateLayout (bindings : Bindings) (t : Template) :
    (templateLayout bindings.counts t).write bindings.valueAt = (t.expand bindings .percent).toList := by
  unfold templateLayout Template.expand Layout.write
  rw [Text.toList_join_empty, List.flatMap_assoc, List.flatMap_map]
  exact List.flatMap_congr fun chunk _ => write_chunkLayout bindings chunk

theorem write_valueLayouts (bindings : Bindings) (t : Template) :
    (valueLayouts bindings.counts t).map (Layout.write bindings.valueAt) =
      (t.expandValues bindings .percent).map String.toList := by
  have hwhole := congrArg (fun text => [text]) (write_templateLayout bindings t)
  unfold valueLayouts Template.expandValues
  rcases hchunks : t.chunks with _ | ⟨_ | name, _ | ⟨_, _⟩⟩
  case cons.placeholder.nil =>
    cases hvalues : bindings.values? name with
    | none =>
      simp only [Bindings.counts, hvalues, Option.map_none]
      exact hwhole
    | some values =>
      simp only [Bindings.counts, hvalues, Option.map_some]
      rw [Layout.write_places hvalues, List.map_map]
      rfl
  all_goals exact hwhole

theorem write_queryLayout {e : Endpoint} (hmap : e.queryMapIndex = none) (args : List Argument) :
    (e.queryLayout (e.bindings args).counts).write (e.bindings args).valueAt = (e.query args).toList := by
  have hmapped : mapPairs (mapEntries args e.queryMapIndex) = [] := by rw [hmap]; rfl
  unfold queryLayout query declaredPairs
  rw [hmapped, List.append_nil, Layout.write_joined, Text.toList_join, List.map_flatMap, List.map_flatMap]
  refine congrArg _ (List.flatMap_congr fun entry _ => ?_)
  rw [List.map_flatMap, List.map_flatMap]
  refine List.flatMap_congr fun template _ => ?_
  have hvalues := write_valueLayouts (e.bindings args) template
  rw [List.map_map, List.map_map]
  have hpair := congrArg (List.map ((Text.Percent.encode entry.1 ++ "=").toList ++ ·)) hvalues
  rw [List.map_map, List.map_map] at hpair
  simpa [Function.comp_def, Layout.write, Piece.span] using hpair

/-! ## Texts that differ in plain characters -/

/-- Two texts that have the same other characters at their ends and inside. -/
structure Alike (text text' : List Char) : Prop where
  nil : text = [] ↔ text' = []
  head : ∀ c, Text.Percent.isPlain c = false → (text.head? = some c ↔ text'.head? = some c)
  last : ∀ c, Text.Percent.isPlain c = false → (text.getLast? = some c ↔ text'.getLast? = some c)
  mem : ∀ c, Text.Percent.isPlain c = false → (c ∈ text ↔ c ∈ text')

namespace Alike

variable {text text' more more' : List Char}

theorem refl (text : List Char) : Alike text text := ⟨.rfl, fun _ _ => .rfl, fun _ _ => .rfl, fun _ _ => .rfl⟩

/-- Texts of plain characters are alike. -/
theorem of_plain (hne : text ≠ []) (hne' : text' ≠ []) (hplain : ∀ c ∈ text, Text.Percent.isPlain c = true)
    (hplain' : ∀ c ∈ text', Text.Percent.isPlain c = true) : Alike text text' := by
  have hout : ∀ c, Text.Percent.isPlain c = false → c ∉ text ∧ c ∉ text' := by
    intro c hc
    constructor
    · intro hmem
      rw [hplain c hmem] at hc
      cases hc
    · intro hmem
      rw [hplain' c hmem] at hc
      cases hc
  refine ⟨iff_of_false hne hne', fun c hc => ?_, fun c hc => ?_, fun c hc => iff_of_false (hout c hc).1 (hout c hc).2⟩
  · exact iff_of_false (fun h => (hout c hc).1 (List.mem_of_head? h)) fun h => (hout c hc).2 (List.mem_of_head? h)
  · exact iff_of_false (fun h => (hout c hc).1 (List.mem_of_getLast? h))
      fun h => (hout c hc).2 (List.mem_of_getLast? h)

theorem append (h : Alike text text') (h' : Alike more more') : Alike (text ++ more) (text' ++ more') := by
  have hempty := h.nil
  have hempty' := h'.nil
  refine ⟨?_, fun c hc => ?_, fun c hc => ?_, fun c hc => ?_⟩
  · rw [List.append_eq_nil_iff, List.append_eq_nil_iff, h.nil, h'.nil]
  · by_cases hnil : text = []
    · rw [hnil, hempty.1 hnil]
      exact h'.head c hc
    · rw [List.head?_append_of_ne_nil _ hnil, List.head?_append_of_ne_nil _ (mt hempty.2 hnil)]
      exact h.head c hc
  · by_cases hnil : more = []
    · rw [hnil, hempty'.1 hnil, List.append_nil, List.append_nil]
      exact h.last c hc
    · rw [List.getLast?_append_of_ne_nil _ hnil, List.getLast?_append_of_ne_nil _ (mt hempty'.2 hnil)]
      exact h'.last c hc
  · rw [List.mem_append, List.mem_append, h.mem c hc, h'.mem c hc]

end Alike

/-- Two ways to fill a layout, neither of them with an empty value, are alike. -/
theorem alike_write {values values' : String → Nat → String} {layout : Layout}
    (hfull : ∀ name index, .value name index ∈ layout → values name index ≠ "" ∧ values' name index ≠ "") :
    Alike (layout.write values) (layout.write values') := by
  induction layout with
  | nil => exact .refl []
  | cons piece layout ih =>
    refine Alike.append ?_ (ih fun name index hmem => hfull name index (.tail _ hmem))
    cases piece with
    | fixed text => exact .refl _
    | value name index =>
      obtain ⟨hvalue, hvalue'⟩ := hfull name index (.head _)
      rw [ne_eq, ← Text.Percent.encode_eq_empty_iff, ← String.toList_eq_nil_iff] at hvalue hvalue'
      exact .of_plain hvalue hvalue' (fun _ => Text.Percent.plain_of_mem_encode) fun _ =>
        Text.Percent.plain_of_mem_encode

/-! ## The layout of a URL -/

/-- What is put between a base URL and a path. -/
def lead (path : String) : String :=
  if path.toList = [] ∨ path.toList.head? = some '/' ∨ path.toList.head? = some '?' then "" else "/"

theorem slashed_eq (path : String) : slashed path = lead path ++ path := by
  unfold slashed lead
  cases hhead : path.toList.head? with
  | none =>
    obtain rfl := String.toList_eq_nil_iff.1 (List.head?_eq_none_iff.1 hhead)
    rfl
  | some c =>
    have hne : path.toList ≠ [] := by
      intro hnil
      rw [hnil] at hhead
      cases hhead
    simp only [hne, false_or, Option.some.injEq, Bool.or_eq_true, beq_iff_eq]
    split
    · rw [String.empty_append]
    · rfl

theorem lead_of_alike {path path' : String} (h : Alike path.toList path'.toList) : lead path = lead path' := by
  unfold lead
  simp only [h.nil, h.head '/' rfl, h.head '?' rfl]

theorem querySign_of_alike {url url' : String} (h : Alike url.toList url'.toList) : querySign url = querySign url' := by
  unfold querySign
  simp only [Bool.or_eq_true, beq_iff_eq, List.contains_iff_mem, h.last '?' rfl, h.last '&' rfl, h.mem '?' rfl]

/-- The text of a layout with one and the same value at all places. -/
def Layout.sample (layout : Layout) : String := String.ofList (layout.write fun _ _ => "x")

/-- The layout of the URL without its query. -/
def frontLayout (e : Endpoint) (counts : String → Option Nat) (base : String) : Layout :=
  .fixed (trimSlashes base) :: .fixed (lead (templateLayout counts e.path).sample) :: templateLayout counts e.path

/-- The layout of the URL, in which the signs in front of the path and of the query are those that stand there
with any values. -/
def layout (e : Endpoint) (counts : String → Option Nat) (base : String) : Layout :=
  if (e.queryLayout counts).sample = "" then e.frontLayout counts base
  else e.frontLayout counts base ++ .fixed (querySign (e.frontLayout counts base).sample) :: e.queryLayout counts

section Places

variable {counts : String → Option Nat} {name : String} {index : Nat}

theorem exists_of_mem_chunk {chunk : Template.Chunk} (h : .value name index ∈ chunkLayout counts chunk) :
    ∃ n, counts name = some n ∧ index < n := by
  cases chunk with
  | literal text => exact absurd (List.mem_singleton.1 h) (by simp)
  | placeholder other =>
    unfold chunkLayout at h
    cases hcounts : counts other with
    | none =>
      simp only [hcounts] at h
      exact absurd (List.mem_singleton.1 h) (by simp)
    | some n =>
      simp only [hcounts] at h
      obtain ⟨place, hplace, hmem⟩ := Layout.mem_joined h
      obtain ⟨rfl, hindex⟩ := Layout.mem_places hplace hmem
      exact ⟨n, hcounts, hindex⟩

theorem exists_of_mem_template {t : Template} (h : .value name index ∈ templateLayout counts t) :
    ∃ n, counts name = some n ∧ index < n := by
  obtain ⟨chunk, -, hmem⟩ := List.mem_flatMap.1 h
  exact exists_of_mem_chunk hmem

theorem exists_of_mem_value {t : Template} {place : Layout} (hplace : place ∈ valueLayouts counts t)
    (h : .value name index ∈ place) : ∃ n, counts name = some n ∧ index < n := by
  unfold valueLayouts at hplace
  split at hplace
  · rename_i other _
    cases hcounts : counts other with
    | none =>
      simp only [hcounts] at hplace
      rw [List.mem_singleton.1 hplace] at h
      exact exists_of_mem_template h
    | some n =>
      simp only [hcounts] at hplace
      obtain ⟨rfl, hindex⟩ := Layout.mem_places hplace h
      exact ⟨n, hcounts, hindex⟩
  · rw [List.mem_singleton.1 hplace] at h
    exact exists_of_mem_template h

theorem exists_of_mem_query {e : Endpoint} (h : .value name index ∈ e.queryLayout counts) :
    ∃ n, counts name = some n ∧ index < n := by
  obtain ⟨pair, hpair, hmem⟩ := Layout.mem_joined h
  obtain ⟨entry, -, hentry⟩ := List.mem_flatMap.1 hpair
  obtain ⟨template, -, htemplate⟩ := List.mem_flatMap.1 hentry
  obtain ⟨place, hplace, rfl⟩ := List.mem_map.1 htemplate
  rcases List.mem_cons.1 hmem with hname | hvalue
  · cases hname
  · exact exists_of_mem_value hplace hvalue

theorem exists_of_mem_front {e : Endpoint} {base : String} (h : .value name index ∈ e.frontLayout counts base) :
    ∃ n, counts name = some n ∧ index < n := by
  rcases List.mem_cons.1 h with hbase | hrest
  · cases hbase
  rcases List.mem_cons.1 hrest with hlead | hpath
  · cases hlead
  exact exists_of_mem_template hpath

/-- A place in the layout of a URL is that of a value there is. -/
theorem exists_of_mem_layout {e : Endpoint} {base : String} (h : .value name index ∈ e.layout counts base) :
    ∃ n, counts name = some n ∧ index < n := by
  unfold layout at h
  split at h
  · exact exists_of_mem_front h
  · rcases List.mem_append.1 h with hfront | hrest
    · exact exists_of_mem_front hfront
    · rcases List.mem_cons.1 hrest with hsign | hquery
      · cases hsign
      · exact exists_of_mem_query hquery

end Places

/-- The sample values give a text that is alike. -/
theorem alike_sample {bindings : Bindings} (hfull : bindings.Full) (layout : Layout)
    (hplaces : ∀ name index, .value name index ∈ layout → ∃ n, bindings.counts name = some n ∧ index < n) :
    Alike layout.sample.toList (layout.write bindings.valueAt) := by
  rw [Layout.sample, String.toList_ofList]
  refine alike_write fun name index hmem => ⟨by decide, ?_⟩
  obtain ⟨n, hcounts, hindex⟩ := hplaces name index hmem
  obtain ⟨values, hvalues, hvalue⟩ := Bindings.exists_valueAt hcounts hindex
  intro hempty
  rw [hempty] at hvalue
  exact hfull name values hvalues (List.mem_of_getElem? hvalue)

theorem write_frontLayout {e : Endpoint} {args : List Argument} (hfull : (e.bindings args).Full) (base : String) :
    (e.frontLayout (e.bindings args).counts base).write (e.bindings args).valueAt =
      (joinBase base (e.path.expand (e.bindings args) .percent)).toList := by
  have hpath := alike_sample hfull (templateLayout (e.bindings args).counts e.path)
    fun _ _ => exists_of_mem_template
  rw [write_templateLayout] at hpath
  unfold frontLayout
  rw [joinBase_eq, slashed_eq, lead_of_alike hpath, String.toList_append, String.toList_append,
    ← write_templateLayout]
  rfl

/-- A URL is its layout, filled with the values. -/
theorem write_layout {e : Endpoint} {args : List Argument} (hmap : e.queryMapIndex = none)
    (hfull : (e.bindings args).Full) (base : String) :
    (e.layout (e.bindings args).counts base).write (e.bindings args).valueAt = (e.urlText args base).toList := by
  have hquery := alike_sample hfull (e.queryLayout (e.bindings args).counts) fun _ _ => exists_of_mem_query
  have hfront := alike_sample hfull (e.frontLayout (e.bindings args).counts base)
    fun _ _ => exists_of_mem_front
  rw [write_queryLayout hmap] at hquery
  rw [write_frontLayout hfull] at hfront
  have hempty : (e.queryLayout (e.bindings args).counts).sample = "" ↔ (e.query args).isEmpty = true := by
    rw [String.isEmpty_iff, ← String.toList_eq_nil_iff, hquery.nil, String.toList_eq_nil_iff]
  unfold layout urlText
  rw [addQuery_eq]
  simp only [hempty]
  split
  · exact write_frontLayout hfull base
  · rw [Layout.write_append, write_frontLayout hfull, querySign_of_alike hfront, String.toList_append,
      String.toList_append, ← write_queryLayout hmap]
    rfl

/-! ## Delimiters -/

/-- The bytes that give a URL its structure: slash, question mark, number sign, ampersand and equals sign. -/
def isDelimiter (b : UInt8) : Bool := b == 0x2F || b == 0x3F || b == 0x23 || b == 0x26 || b == 0x3D

/-- The delimiters of a text in order. -/
def delimiters (text : List Char) : Bytes := (text.flatMap String.utf8EncodeChar).filter isDelimiter

/-- The delimiters that stand at a piece whatever the values are. -/
def Piece.delimiters : Piece → Bytes
  | .fixed text => Endpoint.delimiters text.toList
  | .value .. => []

theorem delimiters_of_plain {text : List Char} (h : ∀ c ∈ text, Text.Percent.isPlain c = true) :
    delimiters text = [] := by
  have hascii : ∀ n < 128, Text.Percent.isPlain (Char.ofNat n) = true →
      (String.utf8EncodeChar (Char.ofNat n)).all (!isDelimiter ·) = true := by decide +kernel
  unfold delimiters
  rw [List.filter_eq_nil_iff]
  intro b hb
  obtain ⟨c, hc, hutf8⟩ := List.mem_flatMap.1 hb
  have hall := hascii c.toNat (Text.Percent.toNat_lt_of_plain (h c hc)) (by rw [Char.ofNat_toNat]; exact h c hc)
  rw [Char.ofNat_toNat, List.all_eq_true] at hall
  simpa using hall b hutf8

/-- The delimiters of a filled layout are those of its fixed text. -/
theorem delimiters_write (values : String → Nat → String) (layout : Layout) :
    delimiters (layout.write values) = layout.flatMap Piece.delimiters := by
  unfold delimiters Layout.write
  rw [List.flatMap_assoc, List.filter_flatMap]
  refine List.flatMap_congr fun piece _ => ?_
  cases piece with
  | fixed text => rfl
  | value name index =>
    change delimiters (Text.Percent.encode (values name index)).toList = []
    exact delimiters_of_plain fun _ => Text.Percent.plain_of_mem_encode

/-- Arguments that bind the same placeholders, each to as many values and to none that is empty, give URLs of one
layout. They have the same delimiters, and each value is read back from its own place. -/
theorem same_structure {e : Endpoint} {args args' : List Argument} (hmap : e.queryMapIndex = none)
    (hcounts : ∀ name, ((e.bindings args).values? name).map List.length =
      ((e.bindings args').values? name).map List.length)
    (hfull : (e.bindings args).Full) (hfull' : (e.bindings args').Full) (base : String) :
    ∃ layout : Layout, (e.urlText args base).toList = layout.flatMap (Piece.span (e.bindings args).valueAt) ∧
      (e.urlText args' base).toList = layout.flatMap (Piece.span (e.bindings args').valueAt) ∧
      delimiters (e.urlText args base).toList = delimiters (e.urlText args' base).toList ∧
      ∀ name index, .value name index ∈ layout → ∀ list ∈ [args, args'], ∃ values value,
        (e.bindings list).values? name = some values ∧ values[index]? = some value ∧
          Text.Percent.decode (Piece.span (e.bindings list).valueAt (.value name index)) = some value := by
  have hsame : (e.bindings args).counts = (e.bindings args').counts := funext hcounts
  have hwrite := write_layout hmap hfull base
  have hwrite' := write_layout hmap hfull' base
  rw [← hsame] at hwrite'
  refine ⟨e.layout (e.bindings args).counts base, hwrite.symm, hwrite'.symm, ?_, fun name index hmem list hlist => ?_⟩
  · rw [← hwrite, ← hwrite', delimiters_write, delimiters_write]
  · obtain ⟨n, hn, hindex⟩ := exists_of_mem_layout hmem
    have hlength : (e.bindings list).counts name = some n := by
      rcases List.mem_cons.1 hlist with rfl | hlist
      · exact hn
      · rw [List.mem_singleton.1 hlist, ← hsame, hn]
    obtain ⟨values, hvalues, hvalue⟩ := Bindings.exists_valueAt hlength hindex
    exact ⟨values, _, hvalues, hvalue, Text.Percent.decode_encode _⟩

/-- A method with values in its path, in a query of its own and within a text. -/
def filterEndpoint : Endpoint :=
  ⟨"Api#filter()", "GET", .compile ("/items/" ++ Template.braced "p"),
    [("q", [.compile (Template.braced "q"), .compile ("by:" ++ Template.braced "p")])], [], [(0, ["p"]), (1, ["q"])],
    none, none, none, .single⟩

theorem bindings_filter (text : String) (texts : List String) :
    filterEndpoint.bindings [.value text, .values texts] = [("q", texts), ("p", [text])] := rfl

theorem full_filter {text : String} {texts : List String} (htext : text ≠ "") (htexts : "" ∉ texts) :
    (filterEndpoint.bindings [.value text, .values texts]).Full := by
  intro name values hvalues
  rw [bindings_filter] at hvalues
  simp only [Bindings.values?, List.find?_cons, List.find?_nil] at hvalues
  split at hvalues
  · cases hvalues
    exact htexts
  · split at hvalues
    · cases hvalues
      simpa using htext.symm
    · cases hvalues

/-- Delimiters in the values are no delimiters of the URL. -/
theorem same_structure_filter :
    filterEndpoint.urlText [.value "../a?b=c", .values ["x&y=z#", "é"]] "https://host/" =
        "https://host/items/..%2Fa%3Fb%3Dc?q=x%26y%3Dz%23&q=%C3%A9&q=by:..%2Fa%3Fb%3Dc" ∧
      delimiters (filterEndpoint.urlText [.value "../a?b=c", .values ["x&y=z#", "é"]] "https://host/").toList =
        delimiters (filterEndpoint.urlText [.value "1", .values ["2", "3"]] "https://host/").toList := by
  have hmap : filterEndpoint.queryMapIndex = none := rfl
  have hcounts : ∀ name,
      ((filterEndpoint.bindings [.value "../a?b=c", .values ["x&y=z#", "é"]]).values? name).map List.length =
        ((filterEndpoint.bindings [.value "1", .values ["2", "3"]]).values? name).map List.length := by
    intro name
    rw [bindings_filter, bindings_filter]
    simp only [Bindings.values?, List.find?_cons, List.find?_nil]
    split
    · rfl
    · split <;> rfl
  have hfull : (filterEndpoint.bindings [.value "../a?b=c", .values ["x&y=z#", "é"]]).Full :=
    full_filter (by decide) (by decide)
  have hfull' : (filterEndpoint.bindings [.value "1", .values ["2", "3"]]).Full :=
    full_filter (by decide) (by decide)
  obtain ⟨layout, -, -, hsame, -⟩ := same_structure hmap hcounts hfull hfull' "https://host/"
  exact ⟨by decide +kernel, hsame⟩

end Endpoint

end ResilientClient
