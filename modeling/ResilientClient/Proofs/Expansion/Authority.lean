/-
The authority of a request. Behind a base URL a method writes a path, which begins with a slash, or a query
behind a question mark, so that the authority of the base URL ends where it ended before. There is one exception:
nothing is put between a query and a base URL that ends in an ampersand, and where this is the last character of
the authority the query becomes part of it (`authority_of_expand`).
-/
import ResilientClient.Proofs.Expansion.Address
import ResilientClient.Proofs.Text.Written
import Mathlib.Data.List.DropRight
import Mathlib.Data.List.TakeWhile

namespace ResilientClient

/-! ## Schemes -/

namespace Http.Uri

theorem eq_colon_of_toLower {c : Char} (h : c.toLower = ':') : c = ':' := by
  unfold Char.toLower at h
  split at h
  · rename_i hupper
    have hval := congrArg (fun c : Char => c.val.toNat) h
    simp only [ge_iff_le, UInt32.le_iff_toNat_le, UInt32.toNat_add] at hupper hval
    simp at hupper hval
    omega
  · exact h

theorem toLower_ne_colon {name : List Char} (hname : ∀ c ∈ name, isSchemeChar c = true) :
    ∀ c ∈ name.map Char.toLower, (c != ':') = true := by
  intro c hc
  obtain ⟨d, hd, rfl⟩ := List.mem_map.1 hc
  rw [bne_iff_ne]
  intro hcolon
  have hscheme := hname d hd
  rw [eq_colon_of_toLower hcolon] at hscheme
  exact absurd hscheme (by decide)

/-- Which scheme a text begins with is decided by its name up to the colon. -/
theorem startsWithFolded_named (word : String) (scheme : List Char) {name : List Char} (rest : List Char)
    (hword : word.toList = scheme ++ [':', '/', '/']) (hscheme : ∀ c ∈ scheme, (c != ':') = true)
    (hname : ∀ c ∈ name, isSchemeChar c = true) :
    startsWithFolded word (name ++ ':' :: '/' :: '/' :: rest) = decide (name.map Char.toLower = scheme) := by
  have hlength : word.length = scheme.length + 3 := by
    rw [← String.length_toList, hword]
    simp
  rw [startsWithFolded, hword, hlength, Bool.eq_iff_iff, beq_iff_eq, decide_eq_true_iff]
  have hcut : ∀ more, (name.map Char.toLower ++ ':' :: more).takeWhile (· != ':') = name.map Char.toLower := by
    intro more
    rw [List.takeWhile_append_of_pos (toLower_ne_colon hname)]
    simp
  constructor
  · intro h
    rw [List.map_take, List.map_append, List.map_cons] at h
    -- up to its first colon, the text is the name on one side and the scheme on the other
    have hsplit := List.take_append_drop (scheme.length + 3)
      (name.map Char.toLower ++ Char.toLower ':' :: ('/' :: '/' :: rest).map Char.toLower)
    have hfirst := congrArg (List.takeWhile (· != ':')) hsplit
    rw [h, List.append_assoc, List.takeWhile_append_of_pos hscheme] at hfirst
    have hname' := hcut (('/' :: '/' :: rest).map Char.toLower)
    change _ = List.takeWhile (· != ':') (name.map Char.toLower ++ ':' :: _) at hfirst
    rw [hname'] at hfirst
    simpa using hfirst.symm
  · rintro rfl
    have htake : (name ++ ':' :: '/' :: '/' :: rest).take ((name.map Char.toLower).length + 3) =
        name ++ [':', '/', '/'] := by
      rw [List.length_map, List.take_append, List.take_of_length_le (Nat.le_add_right _ _),
        Nat.add_sub_cancel_left]
      rfl
    rw [htake, List.map_append]
    rfl

theorem startsWithFolded_take {word : String} {text : List Char} (h : startsWithFolded word text = true)
    (rest : List Char) : (text.take word.length).length = word.length ∧
      startsWithFolded word (text.take word.length ++ rest) = true := by
  have hlength : (text.take word.length).length = word.length := by
    have hword := congrArg List.length (beq_iff_eq.1 h)
    rwa [List.length_map, String.length_toList] at hword
  refine ⟨hlength, ?_⟩
  unfold startsWithFolded at h ⊢
  rwa [List.take_append, hlength, Nat.sub_self, List.take_zero, List.append_nil, List.take_take, Nat.min_self]

/-- A scheme that is neither of the two common ones is read up to its colon. -/
theorem splitScheme_named {name rest : List Char} (hname : ∀ c ∈ name, isSchemeChar c = true)
    (hhttp : ¬ startsWithFolded "http://" (name ++ ':' :: '/' :: '/' :: rest) = true)
    (hhttps : ¬ startsWithFolded "https://" (name ++ ':' :: '/' :: '/' :: rest) = true)
    (hlength : ¬ 64 < name.length) (hrest : rest ≠ []) :
    splitScheme (name ++ ':' :: '/' :: '/' :: rest) = .ok (some (String.ofList name), rest) := by
  have htake : (name ++ ':' :: '/' :: '/' :: rest).takeWhile isSchemeChar = name := by
    rw [List.takeWhile_append_of_pos hname]
    exact List.append_nil _
  have hdrop : (name ++ ':' :: '/' :: '/' :: rest).dropWhile isSchemeChar = ':' :: '/' :: '/' :: rest := by
    rw [List.dropWhile_append_of_pos hname]
    rfl
  have hsome : ¬ (name.isEmpty && rest.isEmpty) = true := by simp [hrest]
  unfold splitScheme
  rw [if_neg hhttp, if_neg hhttps, htake, hdrop]
  exact (if_neg hsome).trans (if_neg hlength)

/-- For a text without one of the common schemes, a scheme is its name up to the colon. -/
theorem name_of_splitScheme {text rest : List Char} {scheme : String}
    (hhttp : ¬ startsWithFolded "http://" text = true) (hhttps : ¬ startsWithFolded "https://" text = true)
    (h : splitScheme text = .ok (some scheme, rest)) :
    ∃ name, text = name ++ ':' :: '/' :: '/' :: rest ∧ (∀ c ∈ name, isSchemeChar c = true) ∧
      ¬ 64 < name.length ∧ scheme = String.ofList name := by
  unfold splitScheme at h
  rw [if_neg hhttp, if_neg hhttps] at h
  dsimp only at h
  split at h
  · rename_i behind hbehind
    have htext := List.takeWhile_append_dropWhile (p := isSchemeChar) (l := text)
    rw [hbehind] at htext
    split at h
    · cases h
    · split at h
      · cases h
      · rename_i hlength
        cases h
        exact ⟨_, htext.symm, fun c hc => List.mem_takeWhile_imp hc, hlength, rfl⟩
  · cases h

/-- What stands behind a scheme does not matter for it, as long as something does. -/
theorem splitScheme_front {text rest : List Char} {scheme : String}
    (h : splitScheme text = .ok (some scheme, rest)) :
    ∃ front, text = front ++ rest ∧ ∀ more, more ≠ [] → splitScheme (front ++ more) = .ok (some scheme, more) := by
  by_cases hhttp : startsWithFolded "http://" text = true
  · unfold splitScheme at h
    rw [if_pos hhttp] at h
    cases h
    refine ⟨text.take 7, (List.take_append_drop 7 text).symm, fun more _ => ?_⟩
    obtain ⟨hlength, hstarts⟩ := startsWithFolded_take hhttp more
    change (text.take 7).length = 7 at hlength
    change startsWithFolded "http://" (text.take 7 ++ more) = true at hstarts
    unfold splitScheme
    rw [if_pos hstarts, List.drop_left' hlength]
  by_cases hhttps : startsWithFolded "https://" text = true
  · unfold splitScheme at h
    rw [if_neg hhttp, if_pos hhttps] at h
    cases h
    refine ⟨text.take 8, (List.take_append_drop 8 text).symm, fun more _ => ?_⟩
    obtain ⟨hlength, hstarts⟩ := startsWithFolded_take hhttps more
    change (text.take 8).length = 8 at hlength
    change startsWithFolded "https://" (text.take 8 ++ more) = true at hstarts
    have hother : ¬ startsWithFolded "http://" (text.take 8 ++ more) = true := by
      rw [startsWithFolded] at hhttp ⊢
      rwa [List.take_append_of_le_length (by rw [hlength]; decide), List.take_take]
    unfold splitScheme
    rw [if_neg hother, if_pos hstarts, List.drop_left' hlength]
  · obtain ⟨name, rfl, hname, hlength, rfl⟩ := name_of_splitScheme hhttp hhttps h
    refine ⟨name ++ [':', '/', '/'], by rw [List.append_assoc]; rfl, fun more hmore => ?_⟩
    -- the name alone decides that the text begins with none of the common schemes
    have hcommon (word : String) (common : List Char) (hword : word.toList = common ++ [':', '/', '/'])
        (hcolon : ∀ c ∈ common, (c != ':') = true) :
        startsWithFolded word (name ++ ':' :: '/' :: '/' :: more) =
          startsWithFolded word (name ++ ':' :: '/' :: '/' :: rest) := by
      rw [startsWithFolded_named word common more hword hcolon hname,
        startsWithFolded_named word common rest hword hcolon hname]
    rw [← hcommon "http://" ['h', 't', 't', 'p'] rfl (by simp)] at hhttp
    rw [← hcommon "https://" ['h', 't', 't', 'p', 's'] rfl (by simp)] at hhttps
    rw [List.append_assoc]
    exact splitScheme_named hname hhttp hhttps hlength hmore

end Http.Uri

namespace Endpoint

/-! ## Queries -/

/-- A written pair begins with an encoded name or with the sign behind it. -/
theorem head_pair (name value : String) :
    ∃ c, (Text.Percent.encode name ++ "=" ++ value).toList.head? = some c ∧ Http.Uri.endsAuthority c = false := by
  rw [String.append_assoc, String.toList_append, List.head?_append]
  cases hname : (Text.Percent.encode name).toList.head? with
  | none => exact ⟨'=', by rw [String.toList_append]; rfl, by decide⟩
  | some c =>
    refine ⟨c, rfl, ?_⟩
    have hplain := Text.Percent.plain_of_mem_encode (List.mem_of_head? hname)
    rw [Bool.eq_false_iff]
    intro hends
    simp only [Http.Uri.endsAuthority, Bool.or_eq_true, beq_iff_eq] at hends
    rcases hends with (rfl | rfl) | rfl <;> exact absurd hplain (by decide)

theorem pair_of_mem {e : Endpoint} {args : List Argument} {pair : String}
    (h : pair ∈ e.declaredPairs (e.bindings args) ++ mapPairs (mapEntries args e.queryMapIndex)) :
    ∃ name value, pair = Text.Percent.encode name ++ "=" ++ value := by
  rcases List.mem_append.1 h with hdeclared | hmapped
  · simp only [declaredPairs, List.mem_flatMap, List.mem_map] at hdeclared
    obtain ⟨entry, -, template, -, value, -, rfl⟩ := hdeclared
    exact ⟨entry.1, value, rfl⟩
  · obtain ⟨entry, -, rfl⟩ := List.mem_map.1 hmapped
    exact ⟨entry.1, Text.Percent.encode entry.2, rfl⟩

/-- A query that is not empty begins with a character that ends no authority. -/
theorem head_query (e : Endpoint) (args : List Argument) (hquery : e.query args ≠ "") :
    ∃ c, (e.query args).toList.head? = some c ∧ Http.Uri.endsAuthority c = false := by
  have hpairs : ∀ pair ∈ e.declaredPairs (e.bindings args) ++ mapPairs (mapEntries args e.queryMapIndex),
      ∃ name value, pair = Text.Percent.encode name ++ "=" ++ value := fun _ => pair_of_mem
  unfold query at hquery ⊢
  generalize e.declaredPairs (e.bindings args) ++ mapPairs (mapEntries args e.queryMapIndex) = pairs
    at hquery hpairs ⊢
  cases pairs with
  | nil => exact absurd (Text.join_nil "&") hquery
  | cons first rest =>
    obtain ⟨name, value, rfl⟩ := hpairs first (.head _)
    obtain ⟨c, hhead, hc⟩ := head_pair name value
    refine ⟨c, ?_, hc⟩
    rw [Text.head_join "&" (fun hempty => ?_) rest, hhead]
    rw [hempty] at hhead
    cases hhead

/-! ## Base URLs -/

/-- How a base URL without a query and a fragment is laid out: what is read as its scheme, its authority, and a
path that begins with a slash unless it is empty. -/
structure Laid (base : String) (site : Http.Uri) (front authority path : List Char) : Prop where
  text : base.toList = front ++ (authority ++ path)
  reads : ∀ more, more ≠ [] → ∃ scheme, site.scheme = some scheme ∧
    Http.Uri.splitScheme (front ++ more) = .ok (some scheme, more)
  named : site.authority = some (String.ofList authority)
  nonempty : authority ≠ []
  inside : ∀ c ∈ authority, Http.Uri.endsAuthority c = false
  rawPath : site.rawPath = String.ofList path
  head : ∀ c ∈ path.head?, c = '/'

theorem exists_laid {base : String} {site : Http.Uri} (hbase : parseUrl base = .ok site) (hmark : '?' ∉ base.toList)
    (hhash : '#' ∉ base.toList) : ∃ front authority path, Laid base site front authority path := by
  obtain ⟨hread, hsome⟩ := parse_of_parseUrl hbase
  obtain ⟨scheme, rest, hsplit, hscheme, hne, hauthority, hquery⟩ := Http.Uri.parts_of_parse hread hsome
  obtain ⟨front, htext, hreads⟩ := Http.Uri.splitScheme_front hsplit
  have hrest : rest = rest.takeWhile (fun c => !Http.Uri.endsAuthority c) ++
    rest.dropWhile (fun c => !Http.Uri.endsAuthority c) := List.takeWhile_append_dropWhile.symm
  generalize hauth : rest.takeWhile (fun c => !Http.Uri.endsAuthority c) = authority at hne hauthority hrest
  generalize hpath : rest.dropWhile (fun c => !Http.Uri.endsAuthority c) = path at hquery hrest
  have hunmarked : ∀ c ∈ path, c ≠ '?' ∧ c ≠ '#' := by
    intro c hc
    have hmem : c ∈ base.toList := by
      rw [htext, hrest]
      exact List.mem_append_right _ (List.mem_append_right _ hc)
    constructor <;> rintro rfl <;> contradiction
  have hwhole : path.takeWhile (fun c => c != '?' && c != '#') = path := by
    rw [List.takeWhile_eq_self_iff]
    intro c hc
    simpa using hunmarked c hc
  refine ⟨front, authority, path, by rw [htext, hrest], fun more hmore => ⟨scheme, hscheme, hreads more hmore⟩,
    hauthority, hne, fun c hc => ?_, ?_, fun c hc => ?_⟩
  · rw [← hauth] at hc
    simpa using List.mem_takeWhile_imp hc
  · unfold Http.Uri.pathAndQuery at hquery
    rw [hwhole] at hquery
    dsimp only at hquery
    split at hquery
    · cases hquery
    · split at hquery
      · split at hquery
        · cases hquery
        · exact (Prod.mk.inj (Except.ok.inj hquery)).1.symm
      · exact (Prod.mk.inj (Except.ok.inj hquery)).1.symm
  · -- what ends the authority is none of the other delimiters
    obtain ⟨hno, hno'⟩ := hunmarked c (List.mem_of_head? hc)
    have hends := List.head?_dropWhile_not (fun c => !Http.Uri.endsAuthority c) rest
    rw [hpath, hc] at hends
    simpa [Http.Uri.endsAuthority, hno, hno'] using hends

/-! ## Behind the authority -/

/-- The query of a method becomes part of the authority of a base URL: the path is empty, there is a query, and an
ampersand ends the authority with nothing but slashes behind it. -/
structure Spills (e : Endpoint) (args : List Argument) (site : Http.Uri) : Prop where
  path : e.path.expand (e.bindings args) .percent = ""
  query : e.query args ≠ ""
  slashes : ∀ c ∈ site.rawPath.toList, c = '/'
  ampersand : ∃ front, site.authority = some (front ++ "&")

theorem slashed_eq_empty_iff (path : String) : slashed path = "" ↔ path = "" := by
  unfold slashed
  cases hhead : path.toList.head? with
  | none => simpa using hhead
  | some c =>
    have hne : path ≠ "" := by
      rintro rfl
      cases hhead
    dsimp only
    split <;> simp [hne]

/-- A query behind a URL without one begins with a question mark, unless an ampersand ends the URL. -/
theorem querySign_of_unmarked {url : String} (h : '?' ∉ url.toList) :
    querySign url = if url.toList.getLast? = some '&' then "" else "?" := by
  have hlast : url.toList.getLast? ≠ some '?' := fun hlast => h (List.mem_of_getLast? hlast)
  unfold querySign
  simp only [Bool.or_eq_true, beq_iff_eq, hlast, false_or, List.contains_iff_mem, h, if_false]

namespace Laid

variable {base : String} {site : Http.Uri} {front authority path : List Char}

/-- Only the slashes at the end of the path go. -/
theorem trimSlashes (h : Laid base site front authority path) :
    (trimSlashes base).toList = front ++ (authority ++ path.rdropWhile (· == '/')) := by
  obtain ⟨before, last, hauthority⟩ := List.eq_nil_or_concat authority |>.resolve_left h.nonempty
  have hlast : (last == '/') = false := by
    rw [beq_eq_false_iff_ne]
    rintro rfl
    exact absurd (h.inside '/' (by rw [hauthority]; simp)) (by decide)
  have hstays : (front ++ authority).reverse.dropWhile (· == '/') = (front ++ authority).reverse := by
    rw [hauthority, List.concat_eq_append, ← List.append_assoc, List.reverse_concat, List.dropWhile_cons, hlast]
    rfl
  unfold Endpoint.trimSlashes List.rdropWhile
  rw [String.toList_ofList, h.text, ← List.append_assoc, List.reverse_append, List.dropWhile_append, hstays,
    ← List.append_assoc]
  split
  · rename_i hnil
    rw [List.isEmpty_iff.1 hnil, List.reverse_reverse, List.reverse_nil, List.append_nil]
  · rw [List.reverse_append, List.reverse_reverse]

theorem head_trimmed (h : Laid base site front authority path) (c : Char)
    (hc : c ∈ (path.rdropWhile (· == '/')).head?) : c = '/' := by
  obtain ⟨slashes, hpath⟩ := List.rdropWhile_prefix (· == '/') path
  refine h.head c ?_
  rw [← hpath, List.head?_append, hc]
  rfl

theorem slashes_iff (h : Laid base site front authority path) :
    (∀ c ∈ site.rawPath.toList, c = '/') ↔ path.rdropWhile (· == '/') = [] := by
  rw [h.rawPath, String.toList_ofList, List.rdropWhile_eq_nil_iff]
  simp

theorem ampersand_iff (h : Laid base site front authority path) :
    (∃ front, site.authority = some (front ++ "&")) ↔ (front ++ authority).getLast? = some '&' := by
  rw [List.getLast?_append_of_ne_nil _ h.nonempty, h.named, List.getLast?_eq_some_iff]
  constructor
  · rintro ⟨before, hbefore⟩
    have hlist := congrArg String.toList (Option.some.inj hbefore)
    rw [String.toList_ofList, String.toList_append] at hlist
    exact ⟨before.toList, hlist⟩
  · rintro ⟨before, rfl⟩
    exact ⟨String.ofList before, by rw [String.ofList_append]⟩

/-- Without a query, what is put behind the authority ends it. -/
theorem joined (h : Laid base site front authority path) (written : String) :
    ∃ more, (Endpoint.trimSlashes base ++ slashed written).toList = front ++ (authority ++ more) ∧
      (∀ c ∈ more.head?, Http.Uri.endsAuthority c = true) ∧
      (more = [] ↔ (∀ c ∈ site.rawPath.toList, c = '/') ∧ written = "") := by
  refine ⟨path.rdropWhile (· == '/') ++ (slashed written).toList, ?_, fun c hc => ?_, ?_⟩
  · rw [String.toList_append, h.trimSlashes]
    simp only [List.append_assoc]
  · rw [List.head?_append, Option.mem_def, Option.or_eq_some_iff] at hc
    rcases hc with hc | ⟨-, hc⟩
    · rw [h.head_trimmed c hc]
      rfl
    · rcases head_slashed _ c hc with rfl | rfl <;> rfl
  · rw [List.append_eq_nil_iff, h.slashes_iff, String.toList_eq_nil_iff, slashed_eq_empty_iff]

/-- A URL is the base URL up to the end of its authority, and then a text that ends the authority, or else the
query alone. -/
theorem urlText (h : Laid base site front authority path) (hmark : '?' ∉ base.toList) (e : Endpoint)
    (args : List Argument) : ∃ more, (e.urlText args base).toList = front ++ (authority ++ more) ∧
      ((¬ e.Spills args site ∧ ∀ c ∈ more.head?, Http.Uri.endsAuthority c = true) ∨
        (e.Spills args site ∧ more = (e.query args).toList)) := by
  obtain ⟨more, hurl, hends, hnothing⟩ := h.joined (e.path.expand (e.bindings args) .percent)
  unfold Endpoint.urlText
  rw [joinBase_eq, addQuery_eq]
  split
  · rename_i hempty
    exact ⟨more, hurl, .inl ⟨fun hspills => hspills.query (String.isEmpty_iff.1 hempty), hends⟩⟩
  rename_i hquery
  by_cases hmore : more = []
  · -- the sign of the query is that behind the authority
    obtain ⟨hslashes, hpath⟩ := hnothing.1 hmore
    rw [hmore, List.append_nil] at hurl
    have hunmarked : '?' ∉ front ++ authority := by
      intro hmem
      rw [h.text, ← List.append_assoc] at hmark
      exact hmark (List.mem_append_left _ hmem)
    rw [querySign_of_unmarked (by rwa [hurl]), hurl]
    refine ⟨((if (front ++ authority).getLast? = some '&' then "" else "?") ++ e.query args).toList, ?_, ?_⟩
    · rw [String.toList_append, hurl, List.append_assoc]
    · split
      · rename_i hlast
        refine .inr ⟨⟨hpath, ?_, hslashes, h.ampersand_iff.2 hlast⟩, by rw [String.empty_append]⟩
        simpa using hquery
      · rename_i hlast
        refine .inl ⟨fun hspills => hlast (h.ampersand_iff.1 hspills.ampersand), fun c hc => ?_⟩
        rw [String.toList_append] at hc
        cases hc
        rfl
  · generalize querySign _ = sign
    refine ⟨more ++ (sign ++ e.query args).toList, ?_, .inl ⟨fun hspills => ?_, ?_⟩⟩
    · rw [String.toList_append, hurl, List.append_assoc, List.append_assoc]
    · exact hmore (hnothing.2 ⟨hspills.slashes, hspills.path⟩)
    · rwa [List.head?_append_of_ne_nil _ hmore]

end Laid

/-- The scheme of a request is that of its base URL, and so is its authority, unless the query runs into it. -/
theorem authority_of_expand {e : Endpoint} {args : List Argument} {base : String} {site : Http.Uri}
    {request : Request} (hbase : parseUrl base = .ok site) (hmark : '?' ∉ base.toList) (hhash : '#' ∉ base.toList)
    (hexpand : e.expand args base = .ok request) :
    request.uri.scheme = site.scheme ∧ (request.uri.authority = site.authority ↔ ¬ e.Spills args site) ∧
      (e.Spills args site → request.uri.authority = site.authority.map (· ++
        String.ofList ((e.query args).toList.takeWhile fun c => !Http.Uri.endsAuthority c))) := by
  obtain ⟨front, authority, path, hlaid⟩ := exists_laid hbase hmark hhash
  obtain ⟨more, hurl, hmore⟩ := hlaid.urlText hmark e args
  have hparse : parseUrl (e.urlText args base) = .ok request.uri := by
    unfold expand at hexpand
    split at hexpand
    · cases hexpand
    · rename_i uri huri
      split at hexpand
      · cases hexpand
      · cases hexpand
        exact huri
  obtain ⟨hread, hsome⟩ := parse_of_parseUrl hparse
  obtain ⟨scheme, rest, hsplit, hscheme, -, hauthority, -⟩ := Http.Uri.parts_of_parse hread hsome
  obtain ⟨scheme', hsite, hreads⟩ := hlaid.reads (authority ++ more) (by simp [hlaid.nonempty])
  rw [hurl] at hsplit
  cases hreads.symm.trans hsplit
  refine ⟨hscheme.trans hsite.symm, ?_⟩
  rw [hauthority, hlaid.named]
  rcases hmore with ⟨hstays, hends⟩ | ⟨hspills, rfl⟩
  · rw [(Http.Uri.takeWhile_authority hlaid.inside hends).1]
    exact ⟨iff_of_true rfl hstays, fun hspills => absurd hspills hstays⟩
  · have htake : (authority ++ (e.query args).toList).takeWhile (fun c => !Http.Uri.endsAuthority c) =
        authority ++ (e.query args).toList.takeWhile fun c => !Http.Uri.endsAuthority c :=
      List.takeWhile_append_of_pos fun c hc => by rw [hlaid.inside c hc]; rfl
    rw [htake]
    refine ⟨iff_of_false (fun hsame => ?_) (not_not_intro hspills), fun _ => ?_⟩
    · -- at least one character of the query is added
      obtain ⟨c, hhead, hc⟩ := e.head_query args hspills.query
      obtain ⟨behind, hquery⟩ := List.head?_eq_some_iff.1 hhead
      have hlist := congrArg String.toList (Option.some.inj hsame)
      rw [String.toList_ofList, String.toList_ofList, hquery, List.takeWhile_cons, hc] at hlist
      simp at hlist
    · rw [Option.map_some, String.ofList_append]

/-- A method with an empty path, declared with one query parameter. -/
def findDraft : Draft := (Draft.mk "Api#find()" "GET" "" [] [] [] none none none .single).query "q"
  (Template.braced "q") |>.param 0 "q"

/-- The method that this declaration becomes. -/
def findEndpoint : Endpoint :=
  ⟨"Api#find()", "GET", ⟨"", []⟩, [("q", [⟨Template.braced "q", [.placeholder "q"]⟩])], [], [(0, ["q"])], none,
    none, none, .single⟩

theorem build_findDraft : findDraft.build = .ok findEndpoint := by decide +kernel

/-- Behind a slash, delimiters in an argument do not reach the authority. -/
theorem authority_of_expand_find : ∃ site request, parseUrl "https://host/" = .ok site ∧
    findEndpoint.expand [.value "@evil/?#"] "https://host/" = .ok request ∧ request.uri.scheme = site.scheme ∧
    request.uri.authority = site.authority := by
  have hhost : ((parseUrl "https://host/").toOption.bind (·.authority)) = some "host" := by decide +kernel
  have hexpands : (findEndpoint.expand [.value "@evil/?#"] "https://host/").isOk = true := by decide +kernel
  cases hsite : parseUrl "https://host/" with
  | error fault => rw [hsite] at hhost; cases hhost
  | ok site =>
    cases hrequest : findEndpoint.expand [.value "@evil/?#"] "https://host/" with
    | error fault => rw [hrequest] at hexpands; cases hexpands
    | ok request =>
      obtain ⟨hscheme, hauthority, -⟩ := authority_of_expand hsite (by decide) (by decide) hrequest
      refine ⟨site, request, rfl, rfl, hscheme, hauthority.2 fun ⟨_, _, _, front, hampersand⟩ => ?_⟩
      rw [hsite] at hhost
      have hlast := congrArg (fun text => text.toList.getLast?) (Option.some.inj (hampersand.symm.trans hhost))
      simp at hlast

/-- Behind an ampersand nothing is put before the query, and the host is another one. -/
theorem ampersand_takes_query : findDraft.build = .ok findEndpoint ∧ '?' ∉ "https://host&".toList ∧
    '#' ∉ "https://host&".toList ∧ ((parseUrl "https://host&").toOption.bind (·.authority)) = some "host&" ∧
    ((findEndpoint.expand [.value "x"] "https://host&").toOption.bind (·.uri.authority)) = some "host&q=x" :=
  ⟨build_findDraft, by decide, by decide, by decide +kernel, by decide +kernel⟩

end Endpoint

end ResilientClient
