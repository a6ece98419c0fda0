/-
The place of the query in a URL. A query is put behind the URL of the path, with a sign that is chosen from the last
character of that URL and from whether there is a question mark in it. Read again, the URL is that of the path with
the query behind the one that the path brings, and this is so exactly if the query does not stray
(`query_of_expand_iff`): there is no number sign in front of it or in it, an ampersand in front of it belongs to a
query, and a question mark in front of it begins one.
-/
import ResilientClient.Proofs.Expansion.Authority

namespace ResilientClient

/-! ## Paths and queries -/

namespace Http.Uri

section Marks

variable {path inline text tail : List Char} {rawPath : String} {query : Option String}

/-- Neither a question mark nor a number sign. -/
abbrev Unmarked (path : List Char) : Prop := ∀ c ∈ path, (c != '?' && c != '#') = true

/-- A text is a path with a query behind it, or a path with nothing or a fragment behind it. -/
theorem exists_unmarked (text : List Char) : ∃ path, Unmarked path ∧
    ((∃ inline, text = path ++ '?' :: inline) ∨ ∃ rest, text = path ++ rest ∧ ∀ c ∈ rest.head?, c = '#') := by
  refine ⟨text.takeWhile fun c => c != '?' && c != '#', fun c hc => ?_, ?_⟩
  · exact List.mem_takeWhile_imp (p := fun c => c != '?' && c != '#') hc
  have htext := (List.takeWhile_append_dropWhile (p := fun c => c != '?' && c != '#') (l := text)).symm
  have hhead := List.head?_dropWhile_not (fun c => c != '?' && c != '#') text
  cases hrest : text.dropWhile fun c => c != '?' && c != '#' with
  | nil =>
    rw [hrest] at htext
    exact .inr ⟨[], htext, nofun⟩
  | cons c rest =>
    rw [hrest] at htext hhead
    have hmark : c = '?' ∨ c = '#' := by simpa [or_iff_not_imp_left] using hhead
    rcases hmark with rfl | rfl
    · exact .inl ⟨rest, htext⟩
    · exact .inr ⟨'#' :: rest, htext, fun c hc => (Option.some.inj hc).symm⟩

/-- A path and behind a question mark a query, which ends at a number sign. -/
theorem pathAndQuery_marked (hpath : Unmarked path) :
    pathAndQuery (path ++ '?' :: inline) = .ok (rawPath, query) ↔
      path.all isPathChar = true ∧ (inline.takeWhile (· != '#')).all isQueryChar = true ∧
        rawPath = String.ofList path ∧ query = some (String.ofList (inline.takeWhile (· != '#'))) := by
  have htake : (path ++ '?' :: inline).takeWhile (fun c => c != '?' && c != '#') = path := by
    rw [List.takeWhile_append_of_pos hpath]
    exact List.append_nil _
  have hdrop : (path ++ '?' :: inline).dropWhile (fun c => c != '?' && c != '#') = '?' :: inline := by
    rw [List.dropWhile_append_of_pos hpath]
    rfl
  have hread : pathAndQuery (path ++ '?' :: inline) =
      if !path.all isPathChar then .error .character
      else if !(inline.takeWhile (· != '#')).all isQueryChar then .error .character
      else .ok (String.ofList path, some (String.ofList (inline.takeWhile (· != '#')))) := by
    unfold pathAndQuery
    rw [htake, hdrop]
    rfl
  rw [hread]
  constructor
  · intro h
    split at h
    · cases h
    · split at h
      · cases h
      · cases h
        simp_all
  · rintro ⟨hpath, hinline, rfl, rfl⟩
    rw [hpath, hinline]
    rfl

/-- A path and a query, with no fragment behind them. -/
theorem pathAndQuery_whole (hpath : Unmarked path) (hinline : '#' ∉ inline) :
    pathAndQuery (path ++ '?' :: inline) = .ok (rawPath, query) ↔
      path.all isPathChar = true ∧ inline.all isQueryChar = true ∧
        rawPath = String.ofList path ∧ query = some (String.ofList inline) := by
  have hplain : inline.takeWhile (· != '#') = inline := by
    rw [List.takeWhile_eq_self_iff]
    intro c hc
    rw [bne_iff_ne]
    rintro rfl
    exact hinline hc
  rw [pathAndQuery_marked hpath, hplain]

/-- A path without a query. -/
theorem pathAndQuery_unmarked (hpath : Unmarked path) (htail : ∀ c ∈ tail.head?, c = '#') :
    pathAndQuery (path ++ tail) = .ok (rawPath, query) ↔
      path.all isPathChar = true ∧ rawPath = String.ofList path ∧ query = none := by
  have htake : (path ++ tail).takeWhile (fun c => c != '?' && c != '#') = path := by
    rw [List.takeWhile_append_of_pos hpath]
    cases tail with
    | nil => exact List.append_nil _
    | cons c tail => simp [htail c rfl]
  have hdrop : (path ++ tail).dropWhile (fun c => c != '?' && c != '#') = tail := by
    rw [List.dropWhile_append_of_pos hpath]
    cases tail with
    | nil => rfl
    | cons c tail => simp [htail c rfl]
  have hread : pathAndQuery (path ++ tail) =
      if !path.all isPathChar then .error .character else .ok (String.ofList path, none) := by
    unfold pathAndQuery
    rw [htake, hdrop]
    cases tail with
    | nil => rfl
    | cons c tail =>
      obtain rfl := htail c rfl
      rfl
  rw [hread]
  constructor
  · intro h
    split at h
    · cases h
    · cases h
      simp_all
  · rintro ⟨hpath, rfl, rfl⟩
    rw [hpath]
    rfl

/-- What comes behind a query is more of it. -/
theorem pathAndQuery_more {more : List Char} (hpath : Unmarked path) (hinline : '#' ∉ inline) (hmore : '#' ∉ more)
    (h : pathAndQuery (path ++ '?' :: (inline ++ more)) = .ok (rawPath, query)) :
    pathAndQuery (path ++ '?' :: inline) = .ok (rawPath, some (String.ofList inline)) ∧
      query = some (String.ofList (inline ++ more)) := by
  have hwhole : '#' ∉ inline ++ more := by simp [hinline, hmore]
  obtain ⟨hallowed, hpairs, hraw, hquery⟩ := (pathAndQuery_whole hpath hwhole).1 h
  rw [List.all_append, Bool.and_eq_true] at hpairs
  exact ⟨(pathAndQuery_whole hpath hinline).2 ⟨hallowed, hpairs.1, hraw, rfl⟩, hquery⟩

/-- Without the query behind it, a path is the same. -/
theorem pathAndQuery_begun (hpath : Unmarked path) (hinline : '#' ∉ inline)
    (h : pathAndQuery (path ++ '?' :: inline) = .ok (rawPath, query)) :
    pathAndQuery path = .ok (rawPath, none) ∧ query = some (String.ofList inline) := by
  obtain ⟨hallowed, -, hraw, hquery⟩ := (pathAndQuery_whole hpath hinline).1 h
  have hnothing : pathAndQuery (path ++ []) = .ok (rawPath, none) :=
    (pathAndQuery_unmarked hpath fun c hc => by cases hc).2 ⟨hallowed, hraw, rfl⟩
  rw [List.append_nil] at hnothing
  exact ⟨hnothing, hquery⟩

/-- A query that is read stands behind a question mark, and there is no number sign in it. -/
theorem exists_of_query {query : String} (h : pathAndQuery text = .ok (rawPath, some query)) :
    '#' ∉ query.toList ∧ ∃ path rest, Unmarked path ∧ text = path ++ '?' :: (query.toList ++ rest) := by
  obtain ⟨path, hpath, ⟨inline, rfl⟩ | ⟨rest, rfl, hrest⟩⟩ := exists_unmarked text
  · obtain ⟨-, -, -, hquery⟩ := (pathAndQuery_marked hpath).1 h
    obtain rfl := Option.some.inj hquery
    rw [String.toList_ofList]
    refine ⟨fun hmem => ?_, path, inline.dropWhile (· != '#'), hpath, by rw [List.takeWhile_append_dropWhile]⟩
    simpa using List.mem_takeWhile_imp hmem
  · cases ((pathAndQuery_unmarked hpath hrest).1 h).2.2

/-- Behind a number sign, nothing is read. -/
theorem pathAndQuery_append (hhash : '#' ∈ text) (tail : List Char) :
    pathAndQuery (text ++ tail) = .ok (rawPath, query) ↔ pathAndQuery text = .ok (rawPath, query) := by
  obtain ⟨path, hpath, ⟨inline, rfl⟩ | ⟨rest, rfl, hrest⟩⟩ := exists_unmarked text
  · have hinline : '#' ∈ inline := by
      rcases List.mem_append.1 hhash with hmem | hmem
      · simpa using hpath _ hmem
      · simpa using hmem
    obtain ⟨front, behind, rfl, hfront⟩ := List.eq_append_cons_of_mem hinline
    have hplain : ∀ c ∈ front, (c != '#') = true := by
      intro c hc
      rw [bne_iff_ne]
      rintro rfl
      exact hfront hc
    have htake : ∀ more, (front ++ '#' :: more).takeWhile (· != '#') = front := by
      intro more
      rw [List.takeWhile_append_of_pos hplain]
      exact List.append_nil _
    rw [List.append_assoc, List.cons_append, List.append_assoc, List.cons_append, pathAndQuery_marked hpath,
      pathAndQuery_marked hpath, htake, htake]
  · have hrest' : ∀ c ∈ (rest ++ tail).head?, c = '#' := by
      cases rest with
      | nil =>
        rw [List.append_nil] at hhash
        simpa using hpath _ hhash
      | cons c rest => exact hrest
    rw [List.append_assoc, pathAndQuery_unmarked hpath hrest', pathAndQuery_unmarked hpath hrest]

end Marks

/-! ## Texts that are read with a scheme -/

theorem folded_of_drop {word : String} {front rest : List Char}
    (hstarts : startsWithFolded word (front ++ rest) = true) (hdrop : (front ++ rest).drop word.length = rest) :
    front.map Char.toLower = word.toList := by
  have hlength := (startsWithFolded_take hstarts []).1
  have hfront : (front ++ rest).take word.length = front := by
    have hsplit := List.take_append_drop word.length (front ++ rest)
    rw [hdrop] at hsplit
    exact List.append_cancel_right hsplit
  rw [← hfront]
  exact beq_iff_eq.1 hstarts

/-- What is read as the scheme is unmarked. -/
theorem unmarked_front {front rest : List Char} {scheme : String}
    (h : splitScheme (front ++ rest) = .ok (some scheme, rest)) : Unmarked front := by
  have hmarks : ∀ word : List Char, '?' ∉ word → '#' ∉ word → front.map Char.toLower = word → Unmarked front := by
    rintro word hmark hhash rfl c hc
    have hlower := List.mem_map_of_mem (f := Char.toLower) hc
    simp only [Bool.and_eq_true, bne_iff_ne]
    constructor <;> rintro rfl
    · exact hmark hlower
    · exact hhash hlower
  by_cases hhttp : startsWithFolded "http://" (front ++ rest) = true
  · unfold splitScheme at h
    rw [if_pos hhttp] at h
    obtain ⟨-, hdrop⟩ := Prod.mk.inj (Except.ok.inj h)
    exact hmarks _ (by decide) (by decide) (folded_of_drop hhttp hdrop)
  by_cases hhttps : startsWithFolded "https://" (front ++ rest) = true
  · unfold splitScheme at h
    rw [if_neg hhttp, if_pos hhttps] at h
    obtain ⟨-, hdrop⟩ := Prod.mk.inj (Except.ok.inj h)
    exact hmarks _ (by decide) (by decide) (folded_of_drop hhttps hdrop)
  · obtain ⟨name, htext, hname, -, -⟩ := name_of_splitScheme hhttp hhttps h
    have hfront : front = name ++ [':', '/', '/'] := by
      refine List.append_cancel_right (htext.trans ?_)
      rw [List.append_assoc]
      rfl
    rw [hfront]
    intro c hc
    rcases List.mem_append.1 hc with hmem | hmem
    · have hscheme := hname c hmem
      simp only [Bool.and_eq_true, bne_iff_ne]
      constructor <;> rintro rfl <;> exact absurd hscheme (by decide)
    · have hsign : [':', '/', '/'].all (fun c => c != '?' && c != '#') = true := by decide
      exact List.all_eq_true.1 hsign c hmem

theorem takeWhile_of_stops {p : Char → Bool} {text tail : List Char}
    (h : (∃ c ∈ text, p c = false) ∨ ∀ c ∈ tail.head?, p c = false) :
    (text ++ tail).takeWhile p = text.takeWhile p ∧ (text ++ tail).dropWhile p = text.dropWhile p ++ tail := by
  induction text with
  | nil =>
    cases tail with
    | nil => exact ⟨rfl, rfl⟩
    | cons c tail =>
      obtain ⟨c', hc', -⟩ | hc := h
      · cases hc'
      · simp [hc c rfl]
  | cons c text ih =>
    cases hc : p c with
    | false => simp [hc]
    | true =>
      have hrest : (∃ c ∈ text, p c = false) ∨ ∀ c ∈ tail.head?, p c = false := by
        refine h.imp_left fun ⟨c', hc', hfalse⟩ => ⟨c', ?_, hfalse⟩
        rcases List.mem_cons.1 hc' with rfl | hmem
        · rw [hc] at hfalse
          cases hfalse
        · exact hmem
      simp [hc, ih hrest]

/-- An unmarked beginning ends at the latest where a question mark is put behind the text. -/
theorem exists_behind {front rest text tail : List Char} (hfront : '?' ∉ front)
    (hmark : '?' ∈ text ∨ tail.head? = some '?') (htext : text ++ tail = front ++ rest) :
    ∃ rest', text = front ++ rest' ∧ rest = rest' ++ tail := by
  rcases List.append_eq_append_iff.1 htext with ⟨mid, rfl, rfl⟩ | ⟨mid, hbehind, hrest⟩
  · cases mid with
    | nil => exact ⟨[], by simp, rfl⟩
    | cons c mid =>
      rcases hmark with hmem | hhead
      · exact absurd (List.mem_append_left _ hmem) hfront
      · obtain rfl : c = '?' := Option.some.inj hhead
        exact absurd (by simp) hfront
  · exact ⟨mid, hbehind, hrest⟩

namespace Reads

variable {base tail : String} {site uri : Uri} {scheme scheme' : String} {rest rest' : List Char}

theorem parse (h : Reads base site scheme rest) : Uri.parse base = .ok site := by
  obtain ⟨hshort, hsplit, hscheme, hne, hchecked, hauthority, hquery⟩ := h
  have hsome : (rest.takeWhile fun c => !endsAuthority c).isEmpty = false := by simpa using hne
  unfold Uri.parse
  rw [if_neg (Nat.not_lt.2 hshort)]
  split
  · rename_i hnil
    rw [hnil] at hsplit
    cases hsplit
  · rename_i hstar
    rw [hstar] at hsplit
    cases hsplit
  · rename_i more hslash
    rw [hslash] at hsplit
    cases hsplit
  · simp only [hsplit, hchecked, hsome, hquery]
    obtain ⟨scheme', authority', path', query'⟩ := site
    simp at hscheme hauthority
    simp [hscheme, hauthority]

theorem rest_ne_nil (h : Reads base site scheme rest) : rest ≠ [] := by
  rintro rfl
  exact h.nonempty rfl

theorem takeWhile_plain (rest : List Char) : Unmarked (rest.takeWhile fun c => !endsAuthority c) := by
  intro c hc
  have hinside := List.mem_takeWhile_imp hc
  simp only [Bool.and_eq_true, bne_iff_ne]
  constructor <;> rintro rfl <;> cases hinside

/-- A text that is read is an unmarked text up to the end of its authority, and then a path and a query. -/
theorem exists_front (h : Reads base site scheme rest) : ∃ front, Unmarked front ∧
    base.toList = front ++ rest.dropWhile fun c => !endsAuthority c := by
  obtain ⟨front, htext, hreads⟩ := splitScheme_front h.split
  refine ⟨front ++ rest.takeWhile fun c => !endsAuthority c, fun c hc => ?_, ?_⟩
  · rcases List.mem_append.1 hc with hmem | hmem
    · exact unmarked_front (hreads rest h.rest_ne_nil) c hmem
    · exact takeWhile_plain rest c hmem
  · rw [List.append_assoc, List.takeWhile_append_dropWhile, htext]

/-- A question mark or a number sign stands behind the authority. -/
theorem mem_of_mark (h : Reads base site scheme rest) {c : Char} (hc : c ∈ base.toList)
    (hmark : (c != '?' && c != '#') = false) : c ∈ rest.dropWhile fun c => !endsAuthority c := by
  obtain ⟨front, hfront, htext⟩ := h.exists_front
  rw [htext] at hc
  refine (List.mem_append.1 hc).resolve_left fun hmem => ?_
  rw [hfront c hmem] at hmark
  cases hmark

/-- A query that is read stands in the text behind a question mark. -/
theorem exists_query (h : Reads base site scheme rest) {query : String} (hquery : site.query = some query) :
    ∃ front behind, base.toList = front ++ '?' :: (query.toList ++ behind) := by
  obtain ⟨front, -, htext⟩ := h.exists_front
  have hread := h.query
  rw [hquery] at hread
  obtain ⟨-, path, behind, -, hrest⟩ := exists_of_query hread
  exact ⟨front ++ path, behind, by rw [htext, hrest, List.append_assoc]⟩

/-- What is put behind a text that is read and has a question mark or a number sign is read as more of its path
and query. -/
theorem append (h : Reads base site scheme rest) (h' : Reads (base ++ tail) uri scheme' rest') {c : Char}
    (hc : c ∈ base.toList) (hmark : (c != '?' && c != '#') = false) :
    pathAndQuery ((rest.dropWhile fun c => !endsAuthority c) ++ tail.toList) = .ok (uri.rawPath, uri.query) := by
  obtain ⟨front, htext, hreads⟩ := splitScheme_front h.split
  have hsplit := h'.split
  rw [String.toList_append, htext, List.append_assoc, hreads _ (by simp [h.rest_ne_nil])] at hsplit
  cases hsplit
  have hmem := h.mem_of_mark hc hmark
  have hstops : ∃ c ∈ rest, (!endsAuthority c) = false := by
    refine ⟨c, (List.dropWhile_suffix _).subset hmem, ?_⟩
    simp only [Bool.and_eq_false_iff, bne_eq_false_iff_eq] at hmark
    rcases hmark with rfl | rfl <;> rfl
  rw [← (takeWhile_of_stops (.inl hstops)).2]
  exact h'.query

/-- The first question mark of a text without a number sign begins its query, and what is put behind the text is
more of this query, up to a number sign. -/
theorem exists_inline (h : Reads base site scheme rest) (hmark : '?' ∈ base.toList) (hhash : '#' ∉ base.toList) :
    ∃ front inline, Unmarked front ∧ base.toList = front ++ '?' :: inline ∧
      site.query = some (String.ofList inline) ∧
      ∀ {tail uri scheme' rest'}, Reads (base ++ tail) uri scheme' rest' →
        uri.query = some (String.ofList ((inline ++ tail.toList).takeWhile (· != '#'))) := by
  obtain ⟨front, hfront, htext⟩ := h.exists_front
  have hread := h.query
  have hmem := h.mem_of_mark hmark rfl
  obtain ⟨path, hpath, ⟨inline, hrest⟩ | ⟨behind, hrest, hbehind⟩⟩ :=
    exists_unmarked (rest.dropWhile fun c => !endsAuthority c)
  · rw [hrest] at htext hread
    have hinline : '#' ∉ inline := fun hmem => hhash (by rw [htext]; simp [hmem])
    obtain ⟨-, -, -, hquery⟩ := (pathAndQuery_whole hpath hinline).1 hread
    refine ⟨front ++ path, inline, fun c hc => ?_, by rw [htext, List.append_assoc], hquery, fun h' => ?_⟩
    · exact (List.mem_append.1 hc).elim (hfront c) (hpath c)
    · have hmore := h.append h' hmark rfl
      rw [hrest, List.append_assoc, List.cons_append] at hmore
      exact ((pathAndQuery_marked hpath).1 hmore).2.2.2
  · -- a fragment would begin behind the path
    rw [hrest] at hmem
    rcases List.mem_append.1 hmem with hmem | hmem
    · cases hpath _ hmem
    · cases behind with
      | nil => cases hmem
      | cons c behind =>
        obtain rfl := hbehind c rfl
        exact absurd (by rw [htext, hrest]; simp) hhash

/-- If what is put behind a text begins with a question mark, or comes behind one, then the text is read as well,
with the same scheme and the same authority. -/
theorem cut (h : Reads (base ++ tail) uri scheme rest) (hmark : '?' ∈ base.toList ∨ tail.toList.head? = some '?') :
    ∃ front text, Unmarked front ∧ base.toList = front ++ text ∧
      pathAndQuery (text ++ tail.toList) = .ok (uri.rawPath, uri.query) ∧
      ∀ query, pathAndQuery text = .ok (uri.rawPath, query) →
        ∃ rest', Reads base { uri with query } scheme rest' := by
  obtain ⟨front, htext, hreads⟩ := splitScheme_front h.split
  have hfront := unmarked_front (hreads rest h.rest_ne_nil)
  have hunmarked : '?' ∉ front := fun hmem => by cases hfront _ hmem
  have hauthority : rest.head? ≠ some '?' := by
    intro hhead
    obtain ⟨behind, rfl⟩ := List.head?_eq_some_iff.1 hhead
    exact h.nonempty rfl
  rw [String.toList_append] at htext
  obtain ⟨rest', hbase, hrest⟩ := exists_behind hunmarked hmark htext
  have hmem : '?' ∈ base.toList → '?' ∈ rest' := fun hmem => by
    rw [hbase] at hmem
    exact (List.mem_append.1 hmem).resolve_left hunmarked
  have hne : rest' ≠ [] := by
    rintro rfl
    rcases hmark with hmark | hhead
    · cases hmem hmark
    · rw [hrest] at hauthority
      exact hauthority hhead
  have hstops : (∃ c ∈ rest', (!endsAuthority c) = false) ∨ ∀ c ∈ tail.toList.head?, (!endsAuthority c) = false := by
    refine hmark.imp (fun hmark => ⟨'?', hmem hmark, rfl⟩) fun hhead c hc => ?_
    cases hhead.symm.trans hc
    rfl
  obtain ⟨htake, hdrop⟩ := takeWhile_of_stops hstops
  rw [← hrest] at htake hdrop
  obtain ⟨hshort, -, hscheme, hsome, hchecked, hnamed, hquery⟩ := h
  rw [htake] at hsome hchecked hnamed
  rw [hdrop] at hquery
  rw [String.utf8ByteSize_append] at hshort
  refine ⟨front ++ rest'.takeWhile fun c => !endsAuthority c, _, fun c hc => ?_, ?_, hquery, fun query hread => ?_⟩
  · exact (List.mem_append.1 hc).elim (hfront c) (takeWhile_plain rest' c)
  · rw [List.append_assoc, List.takeWhile_append_dropWhile, hbase]
  · exact ⟨rest', by omega, by rw [hbase]; exact hreads rest' hne, hscheme, hsome, hchecked, hnamed, hread⟩

end Reads

end Http.Uri

/-! ## A query behind a URL -/

namespace Endpoint

variable {url query : String} {site uri : Http.Uri}

theorem parseUrl_eq_ok_iff : parseUrl url = .ok uri ↔ ∃ scheme rest, Http.Uri.Reads url uri scheme rest := by
  constructor
  · intro h
    obtain ⟨hread, hsome⟩ := parse_of_parseUrl h
    exact Http.Uri.reads_of_parse hread hsome
  · rintro ⟨scheme, rest, h⟩
    unfold parseUrl
    rw [h.parse]
    simp [h.scheme, h.authority]

/-- What is put between a query and a further one: an ampersand, unless the earlier one is empty or ends in one. -/
def pairSign (inline : String) : String :=
  if inline = "" ∨ inline.toList.getLast? = some '&' then "" else "&"

/-- A query behind the one that a URL already has. -/
def merged : Option String → String → String
  | none, query => query
  | some inline, query => inline ++ (pairSign inline ++ query)

/-- A query that is put behind a URL does not come to stand behind the query of this URL. -/
inductive Strays (url query : String) : Prop
  /-- It stands in a fragment. -/
  | fragment : '#' ∈ url.toList → Strays url query
  /-- It ends where a fragment begins. -/
  | cut : '#' ∈ query.toList → Strays url query
  /-- The ampersand in front of it is not part of a query. -/
  | unmarked : url.toList.getLast? = some '&' → '?' ∉ url.toList → Strays url query
  /-- The question mark in front of it is part of a query. -/
  | remarked {front : List Char} : url.toList = front ++ ['?'] → '?' ∈ front → Strays url query

theorem merged_suffix (inline : Option String) (query : String) : ∃ front, merged inline query = front ++ query := by
  cases inline with
  | none => exact ⟨"", String.empty_append.symm⟩
  | some inline => exact ⟨inline ++ pairSign inline, String.append_assoc.symm⟩

theorem ne_merged (hquery : query ≠ "") (inline : Option String) : inline ≠ some (merged inline query) := by
  cases inline with
  | none => nofun
  | some inline =>
    intro h
    have hlength := congrArg String.length (Option.some.inj h)
    have hpos : query.length ≠ 0 := mt String.length_eq_zero_iff.1 hquery
    rw [merged, String.length_append, String.length_append] at hlength
    omega

/-- Behind a question mark that is the last one, or does not end the URL, the sign is that between two queries. -/
theorem querySign_of_marked {front inline : List Char} (hurl : url.toList = front ++ '?' :: inline)
    (hlast : inline.getLast? ≠ some '?') : querySign url = pairSign (String.ofList inline) := by
  have hcontains : url.toList.contains '?' = true := by
    rw [List.contains_iff_mem, hurl]
    simp
  have hempty : String.ofList inline = "" ↔ inline = [] := by
    rw [← String.toList_eq_nil_iff, String.toList_ofList]
  unfold querySign pairSign
  simp only [hcontains, hempty, String.toList_ofList]
  rw [hurl, List.getLast?_append_of_ne_nil _ (List.cons_ne_nil _ _)]
  cases inline with
  | nil => rfl
  | cons c inline => simp [hlast]

section Strays

variable {tail scheme scheme' : String} {rest rest' : List Char}

/-- Behind a number sign, the URL has the query that it has alone. -/
theorem not_merged_of_fragment (hquery : query ≠ "") (hsite : Http.Uri.Reads url site scheme rest)
    (hread : Http.Uri.Reads (url ++ tail) uri scheme' rest') (hhash : '#' ∈ url.toList) :
    uri.query ≠ some (merged site.query query) := by
  intro hmerged
  have hrest := hsite.append hread hhash rfl
  rw [Http.Uri.pathAndQuery_append (hsite.mem_of_mark hhash rfl), hsite.query] at hrest
  obtain ⟨-, hsame⟩ := Prod.mk.inj (Except.ok.inj hrest)
  exact ne_merged hquery site.query (hsame.trans hmerged)

/-- There is no number sign in a query that is read. -/
theorem not_merged_of_cut (hread : Http.Uri.Reads (url ++ tail) uri scheme' rest') (hhash : '#' ∈ query.toList) :
    uri.query ≠ some (merged site.query query) := by
  intro hmerged
  have hrest := hread.query
  rw [hmerged] at hrest
  obtain ⟨front, hfront⟩ := merged_suffix site.query query
  refine (Http.Uri.exists_of_query hrest).1 ?_
  rw [hfront, String.toList_append]
  exact List.mem_append_right _ hhash

/-- A query that is put behind an ampersand is read only if the URL has a question mark. -/
theorem not_merged_of_unmarked (hsite : Http.Uri.Reads url site scheme rest)
    (hread : Http.Uri.Reads (url ++ (querySign url ++ query)) uri scheme' rest')
    (hlast : url.toList.getLast? = some '&') (hmark : '?' ∉ url.toList) :
    uri.query ≠ some (merged site.query query) := by
  intro hmerged
  have hnone : site.query = none := by
    cases hinline : site.query with
    | none => rfl
    | some inline =>
      obtain ⟨front, behind, htext⟩ := hsite.exists_query hinline
      exact absurd (by rw [htext]; simp) hmark
  -- the question mark in front of the query would be one of the URL
  rw [hnone] at hmerged
  obtain ⟨front, behind, htext⟩ := hread.exists_query hmerged
  rw [querySign_of_unmarked hmark, if_pos hlast, String.empty_append, String.toList_append] at htext
  change _ = front ++ '?' :: (query.toList ++ behind) at htext
  have hlength := congrArg List.length htext
  simp only [List.length_append, List.length_cons] at hlength
  have hget := congrArg (·[front.length]?) htext
  rw [List.getElem?_append_left (by omega)] at hget
  exact hmark (List.mem_of_getElem? (hget.trans (by simp)))

/-- Behind a query that ends in a question mark, an ampersand is missing. -/
theorem not_merged_of_remarked (hsite : Http.Uri.Reads url site scheme rest)
    (hread : Http.Uri.Reads (url ++ (querySign url ++ query)) uri scheme' rest') (hfragment : '#' ∉ url.toList)
    {before : List Char} (hurl : url.toList = before ++ ['?']) (hmark : '?' ∈ before) :
    uri.query ≠ some (merged site.query query) := by
  intro hmerged
  obtain ⟨front, inline, hfront, htext, hinline, hwhole⟩ := hsite.exists_inline (by rw [hurl]; simp) hfragment
  have hlast : inline.getLast? = some '?' := by
    cases inline with
    | nil =>
      -- there would be one question mark only
      rw [List.append_cancel_right (hurl.symm.trans htext)] at hmark
      cases hfront _ hmark
    | cons c inline =>
      have hends := congrArg List.getLast? (hurl.symm.trans htext)
      simpa using hends.symm
  have hsign : querySign url = "" := by
    unfold querySign
    rw [hurl]
    simp
  have hpair : pairSign (String.ofList inline) = "&" := by
    refine if_neg ?_
    rw [← String.toList_eq_nil_iff, String.toList_ofList, hlast]
    rintro (rfl | hampersand)
    · cases hlast
    · cases hampersand
  rw [hwhole hread, hinline, merged, hpair, hsign, String.empty_append] at hmerged
  have hlength := congrArg String.length (Option.some.inj hmerged)
  have hle := (List.takeWhile_sublist (· != '#') (l := inline ++ query.toList)).length_le
  simp only [String.length_append, String.length_ofList, List.length_append, String.length_toList] at hlength hle
  have hone : "&".length = 1 := rfl
  omega

/-- A query that strays does not stand behind that of the URL. -/
theorem not_merged_of_strays (hquery : query ≠ "") (hsite : Http.Uri.Reads url site scheme rest)
    (hread : Http.Uri.Reads (url ++ (querySign url ++ query)) uri scheme' rest') (hstrays : Strays url query) :
    uri.query ≠ some (merged site.query query) := by
  by_cases hfragment : '#' ∈ url.toList
  · exact not_merged_of_fragment hquery hsite hread hfragment
  cases hstrays with
  | fragment hhash => exact absurd hhash hfragment
  | cut hhash => exact not_merged_of_cut hread hhash
  | unmarked hlast hmark => exact not_merged_of_unmarked hsite hread hlast hmark
  | remarked hurl hmark => exact not_merged_of_remarked hsite hread hfragment hurl hmark

end Strays

/-- A query that does not stray stands behind that of the URL. -/
theorem exists_merged_of_not_strays {scheme : String} {rest : List Char}
    (hread : Http.Uri.Reads (url ++ (querySign url ++ query)) uri scheme rest) (hstrays : ¬ Strays url query) :
    ∃ site rest', Http.Uri.Reads url site scheme rest' ∧
      uri = { site with query := some (merged site.query query) } := by
  have hhash : '#' ∉ url.toList := fun hmem => hstrays (.fragment hmem)
  have hplain : '#' ∉ query.toList := fun hmem => hstrays (.cut hmem)
  have hsign (hmark : '?' ∉ url.toList) : querySign url = "?" := by
    rw [querySign_of_unmarked hmark, if_neg fun hlast => hstrays (.unmarked hlast hmark)]
  have hcuts : '?' ∈ url.toList ∨ (querySign url ++ query).toList.head? = some '?' := by
    refine or_iff_not_imp_left.2 fun hmark => ?_
    rw [hsign hmark, String.toList_append]
    rfl
  obtain ⟨front, text, hfront, htext, hquery, hsite⟩ := hread.cut hcuts
  obtain ⟨path, hpath, ⟨inline, rfl⟩ | ⟨behind, rfl, hbehind⟩⟩ := Http.Uri.exists_unmarked text
  · -- the path brings a query
    have hinline : '#' ∉ inline := fun hmem => hhash (by rw [htext]; simp [hmem])
    rw [← List.append_assoc] at htext
    have hlast : inline.getLast? ≠ some '?' := by
      intro hlast
      obtain ⟨before, rfl⟩ := List.getLast?_eq_some_iff.1 hlast
      have hends : url.toList = (front ++ path ++ '?' :: before) ++ ['?'] := by
        rw [htext]
        simp
      exact hstrays (.remarked hends (by simp))
    have hmore : '#' ∉ (pairSign (String.ofList inline) ++ query).toList := by
      rw [String.toList_append]
      unfold pairSign
      split <;> simp [hplain]
    rw [querySign_of_marked htext hlast, List.append_assoc, List.cons_append] at hquery
    obtain ⟨halone, hmerged⟩ := Http.Uri.pathAndQuery_more hpath hinline hmore hquery
    obtain ⟨rest', h⟩ := hsite _ halone
    refine ⟨_, rest', h, ?_⟩
    rw [merged, ← String.ofList_toList (s := pairSign (String.ofList inline) ++ query), ← String.ofList_append,
      ← hmerged]
  · -- the path brings none
    obtain rfl : behind = [] := by
      cases behind with
      | nil => rfl
      | cons c behind =>
        obtain rfl := hbehind c rfl
        exact absurd (by rw [htext]; simp) hhash
    rw [List.append_nil] at htext hquery hsite
    have hmark : '?' ∉ url.toList := by
      rw [htext]
      intro hmem
      rcases List.mem_append.1 hmem with hmem | hmem
      · cases hfront _ hmem
      · cases hpath _ hmem
    rw [hsign hmark, String.toList_append] at hquery
    obtain ⟨halone, hmerged⟩ := Http.Uri.pathAndQuery_begun hpath hplain hquery
    obtain ⟨rest', h⟩ := hsite _ halone
    refine ⟨_, rest', h, ?_⟩
    rw [merged, ← String.ofList_toList (s := query), ← hmerged]

/-! ## The query of a request -/

section Requests

variable {e : Endpoint} {args : List Argument} {base : String} {request : Request}

/-- The URL of a request up to its query. -/
def pathUrl (e : Endpoint) (args : List Argument) (base : String) : String :=
  joinBase base (e.path.expand (e.bindings args) .percent)

theorem urlText_eq (hquery : e.query args ≠ "") :
    e.urlText args base = e.pathUrl args base ++ (querySign (e.pathUrl args base) ++ e.query args) := by
  change addQuery (e.pathUrl args base) (e.query args) = _
  rw [addQuery_eq, if_neg (by simpa using hquery)]

theorem reads_of_expand (h : e.expand args base = .ok request) :
    ∃ scheme rest, Http.Uri.Reads (e.urlText args base) request.uri scheme rest := by
  unfold expand at h
  split at h
  · cases h
  · rename_i uri huri
    split at h
    · cases h
    · cases h
      exact parseUrl_eq_ok_iff.1 huri

/-- Exactly if the query of a method does not stray, a request goes to the URL of its path, with the query behind
the one that the path brings. -/
theorem query_of_expand_iff (hquery : e.query args ≠ "") (hexpand : e.expand args base = .ok request) :
    (∃ site, parseUrl (e.pathUrl args base) = .ok site ∧
      request.uri = { site with query := some (merged site.query (e.query args)) }) ↔
        ¬ Strays (e.pathUrl args base) (e.query args) := by
  obtain ⟨scheme, rest, hread⟩ := reads_of_expand hexpand
  rw [urlText_eq hquery] at hread
  constructor
  · rintro ⟨site, hsite, hmerged⟩ hstrays
    obtain ⟨_, _, hsite⟩ := parseUrl_eq_ok_iff.1 hsite
    exact not_merged_of_strays hquery hsite hread hstrays (congrArg Http.Uri.query hmerged)
  · intro hstrays
    obtain ⟨site, rest', hsite, hmerged⟩ := exists_merged_of_not_strays hread hstrays
    exact ⟨site, parseUrl_eq_ok_iff.2 ⟨scheme, rest', hsite⟩, hmerged⟩

end Requests

/-- A method whose path brings a query, with a map of further query parameters. -/
def mirrorDraft : Draft :=
  ((Draft.mk "Api#mirror()" "GET" ("/mirror?a=" ++ Template.braced "p") [] [] [] none none none .single).param 0
    "p").queryMap 1

/-- The method that this declaration becomes. -/
def mirrorEndpoint : Endpoint :=
  ⟨"Api#mirror()", "GET", ⟨"/mirror?a=" ++ Template.braced "p", [.literal "/mirror?a=", .placeholder "p"]⟩, [], [],
    [(0, ["p"])], none, some 1, none, .single⟩

/-- The query of a map stands behind the one of the path. -/
theorem query_of_expand_mirror : mirrorDraft.build = .ok mirrorEndpoint ∧ ∃ site request,
    parseUrl (mirrorEndpoint.pathUrl [.value "7&7", .map [("k", ["v"])]] "https://host/api/") = .ok site ∧
      mirrorEndpoint.expand [.value "7&7", .map [("k", ["v"])]] "https://host/api/" = .ok request ∧
      request.uri = { site with query := some "a=7%267&k=v" } := by
  refine ⟨by decide +kernel, ?_⟩
  have hquery : mirrorEndpoint.query [.value "7&7", .map [("k", ["v"])]] = "k=v" := by decide +kernel
  have hurl : mirrorEndpoint.pathUrl [.value "7&7", .map [("k", ["v"])]] "https://host/api/" =
      "https://host/api/mirror?a=7%267" := by decide +kernel
  have hexpands : (mirrorEndpoint.expand [.value "7&7", .map [("k", ["v"])]] "https://host/api/").isOk = true := by
    decide +kernel
  cases hrequest : mirrorEndpoint.expand [.value "7&7", .map [("k", ["v"])]] "https://host/api/" with
  | error fault => rw [hrequest] at hexpands; cases hexpands
  | ok request =>
    have hstays : ¬ Strays "https://host/api/mirror?a=7%267" "k=v" := by
      rintro (hhash | hhash | ⟨hlast, -⟩ | ⟨hurl, -⟩)
      · exact absurd hhash (by decide)
      · exact absurd hhash (by decide)
      · exact absurd hlast (by decide)
      · exact absurd (congrArg List.getLast? hurl) (by simp)
    obtain ⟨site, hsite, huri⟩ := (query_of_expand_iff (by rw [hquery]; decide) hrequest).2 (by rwa [hquery, hurl])
    have hinline : ((parseUrl "https://host/api/mirror?a=7%267").toOption.bind (·.query)) = some "a=7%267" := by
      decide +kernel
    refine ⟨site, request, hsite, rfl, ?_⟩
    rw [hurl] at hsite
    rw [hsite] at hinline
    rw [huri, hquery, show site.query = some "a=7%267" from hinline]
    rfl

/-- A method with one query parameter, whose path ends in an ampersand. -/
def ampersandEndpoint : Endpoint := { findEndpoint with path := ⟨"/a&", [.literal "/a&"]⟩ }

/-- Behind an ampersand of the path, a query is read as more of the path. -/
theorem ampersand_hides_query : { findDraft with path := "/a&" }.build = .ok ampersandEndpoint ∧
    ampersandEndpoint.query [.value "x"] = "q=x" ∧
    ((parseUrl (ampersandEndpoint.pathUrl [.value "x"] "https://host")).toOption.map fun (site : Http.Uri) =>
      (site.rawPath, site.query)) = some ("/a&", none) ∧
    ((ampersandEndpoint.expand [.value "x"] "https://host").toOption.map fun (request : Request) =>
      (request.uri.rawPath, request.uri.query)) = some ("/a&q=x", none) :=
  ⟨by decide +kernel, by decide +kernel, by decide +kernel, by decide +kernel⟩

end Endpoint

end ResilientClient
