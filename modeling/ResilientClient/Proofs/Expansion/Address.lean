/-
Addresses of requests. The base URL of an instance is a scheme and an authority, and everything behind them
is written by the method alone (`urlText_server`). Read again, the URL has that scheme and that authority, and
its path and its query are the same for every instance (`uri_of_server`).
-/
import ResilientClient.Expansion
import ResilientClient.Target
import Mathlib.Tactic

namespace ResilientClient

/-! ## Base URLs of instances -/

namespace Server

/-- The scheme of an instance. -/
def scheme (s : Server) : String := if s.secure then "https" else "http"

/-- The authority of an instance: its host, a bare address with colons in brackets, and its port. -/
def authority (s : Server) : String :=
  (if s.host.toList.contains ':' && s.host.toList.head? != some '[' then "[" ++ s.host ++ "]"
    else s.host) ++ ":" ++ toString s.port

/-- No character of the host ends an authority. -/
def Plain (s : Server) : Prop := '/' ∉ s.host.toList ∧ '?' ∉ s.host.toList ∧ '#' ∉ s.host.toList

variable {s : Server}

theorem baseUrl_eq (s : Server) : s.baseUrl = s.scheme ++ "://" ++ s.authority := by
  unfold baseUrl authority scheme
  simp only [String.append_assoc]

theorem endsAuthority_of_digit {c : Char} (h : c.isDigit = true) : Http.Uri.endsAuthority c = false := by
  unfold Http.Uri.endsAuthority
  rw [Bool.eq_false_iff]
  intro hends
  simp only [Bool.or_eq_true, beq_iff_eq] at hends
  rcases hends with (rfl | rfl) | rfl <;> exact absurd h (by decide)

theorem toList_authority (s : Server) : ∃ host, s.authority.toList = host ++ ':' :: Nat.toDigits 10 s.port ∧
    ∀ c ∈ host, c = '[' ∨ c = ']' ∨ c ∈ s.host.toList := by
  have hport : (toString s.port).toList = Nat.toDigits 10 s.port := by
    rw [Nat.toString_eq_ofList_toDigits, String.toList_ofList]
  unfold authority
  rw [String.toList_append, String.toList_append, hport, List.append_assoc]
  refine ⟨_, rfl, fun c hc => ?_⟩
  split at hc
  · simp only [String.toList_append, List.mem_append] at hc
    rcases hc with (hopen | hhost) | hclose
    · exact .inl (List.mem_singleton.1 hopen)
    · exact .inr (.inr hhost)
    · exact .inr (.inl (List.mem_singleton.1 hclose))
  · exact .inr (.inr hc)

theorem Plain.authority_inside (h : s.Plain) : ∀ c ∈ s.authority.toList, Http.Uri.endsAuthority c = false := by
  obtain ⟨host, hlist, hhost⟩ := s.toList_authority
  obtain ⟨hslash, hmark, hhash⟩ := h
  intro c hc
  rw [hlist] at hc
  rcases List.mem_append.1 hc with hc | hc
  · rcases hhost c hc with rfl | rfl | hc
    · decide
    · decide
    · have hne : c ≠ '/' ∧ c ≠ '?' ∧ c ≠ '#' := by
        refine ⟨?_, ?_, ?_⟩ <;> rintro rfl <;> contradiction
      simp [Http.Uri.endsAuthority, hne]
  · rcases List.mem_cons.1 hc with rfl | hdigit
    · decide
    · exact endsAuthority_of_digit (Nat.isDigit_of_mem_toDigits (by decide) (by decide) hdigit)

end Server

/-! ## Texts behind a base -/

namespace Endpoint

/-- A base that ends in a digit and has no query. -/
def Solid (base : String) : Prop :=
  '?' ∉ base.toList ∧ ∃ front digit, base.toList = front ++ [digit] ∧ digit.isDigit = true

theorem solid_baseUrl {s : Server} (h : s.Plain) : Solid s.baseUrl := by
  rw [s.baseUrl_eq]
  constructor
  · rw [String.toList_append, String.toList_append]
    simp only [List.mem_append, not_or]
    refine ⟨⟨?_, by decide⟩, ?_⟩
    · unfold Server.scheme
      split <;> decide
    · intro hmark
      exact absurd (h.authority_inside '?' hmark) (by decide)
  · obtain ⟨host, hlist, -⟩ := s.toList_authority
    obtain ⟨digits, digit, hdigits⟩ := List.eq_nil_or_concat (Nat.toDigits 10 s.port) |>.resolve_left
      Nat.toDigits_ne_nil
    refine ⟨(s.scheme ++ "://").toList ++ host ++ ':' :: digits, digit, ?_, ?_⟩
    · rw [String.toList_append, hlist, hdigits]
      simp
    · refine Nat.isDigit_of_mem_toDigits (b := 10) (n := s.port) (by decide) (by decide) ?_
      simp [hdigits]

/-- A path with a slash in front, unless it is empty or brings a slash or a question mark. -/
def slashed (path : String) : String :=
  match path.toList.head? with
  | none => ""
  | some c => if c == '/' || c == '?' then path else "/" ++ path

/-- What is put between a URL and a query. -/
def querySign (url : String) : String :=
  if url.toList.getLast? == some '?' || url.toList.getLast? == some '&' then ""
  else if url.toList.contains '?' then "&" else "?"

/-- What a method writes behind a base URL. -/
def tail (e : Endpoint) (args : List Argument) : String :=
  addQuery (slashed (e.path.expand (e.bindings args) .percent)) (e.query args)

section Texts

variable {base : String}

theorem trimSlashes_of_solid (h : Solid base) : trimSlashes base = base := by
  obtain ⟨-, front, digit, hbase, hdigit⟩ := h
  have hslash : (digit == '/') = false := by
    rw [beq_eq_false_iff_ne]
    rintro rfl
    exact absurd hdigit (by decide)
  unfold trimSlashes
  rw [hbase, List.reverse_append, List.reverse_singleton, List.singleton_append, List.dropWhile_cons, hslash]
  rw [if_neg Bool.false_ne_true, List.reverse_cons, List.reverse_reverse, ← hbase, String.ofList_toList]

theorem joinBase_eq (base path : String) : joinBase base path = trimSlashes base ++ slashed path := by
  unfold joinBase slashed
  cases path.toList.head? with
  | none => exact String.append_empty.symm
  | some c =>
    dsimp only
    split
    · rfl
    · rw [String.append_assoc]

theorem addQuery_eq (url query : String) :
    addQuery url query = if query.isEmpty then url else url ++ (querySign url ++ query) := by
  unfold addQuery querySign
  split
  · rfl
  · dsimp only
    split
    · rw [String.empty_append]
    · split <;> rw [String.append_assoc]

theorem querySign_of_solid (h : Solid base) (path : String) : querySign (base ++ path) = querySign path := by
  obtain ⟨hmark, front, digit, hbase, hdigit⟩ := h
  have hlast : (some digit == some '?' || some digit == some '&') = false := by
    rw [Bool.or_eq_false_iff]
    constructor <;> rw [beq_eq_false_iff_ne] <;> rintro ⟨rfl⟩ <;> exact absurd hdigit (by decide)
  have hcontains : (base ++ path).toList.contains '?' = path.toList.contains '?' := by
    rw [Bool.eq_iff_iff]
    simp [String.toList_append, hmark]
  unfold querySign
  rw [hcontains, String.toList_append, List.getLast?_append, hbase, List.getLast?_append]
  cases hpath : path.toList.getLast? with
  | some c => rfl
  | none =>
    -- the sign is that behind a digit, which is the one behind nothing
    simp only [List.getLast?_singleton, Option.some_or, Option.none_or, hlast]
    rfl

theorem addQuery_of_solid (h : Solid base) (path query : String) :
    addQuery (base ++ path) query = base ++ addQuery path query := by
  rw [addQuery_eq, addQuery_eq, querySign_of_solid h]
  split
  · rfl
  · rw [String.append_assoc]

/-- Behind the base URL of an instance a method writes the same for every instance. -/
theorem urlText_server {s : Server} (h : s.Plain) (e : Endpoint) (args : List Argument) :
    e.urlText args s.baseUrl = s.baseUrl ++ e.tail args := by
  have hsolid := solid_baseUrl h
  unfold urlText tail
  rw [joinBase_eq, trimSlashes_of_solid hsolid, addQuery_of_solid hsolid]

theorem head_slashed (path : String) : ∀ c ∈ (slashed path).toList.head?, c = '/' ∨ c = '?' := by
  intro c hc
  unfold slashed at hc
  cases hhead : path.toList.head? with
  | none =>
    rw [hhead] at hc
    cases hc
  | some first =>
    rw [hhead] at hc
    dsimp only at hc
    split at hc
    · rename_i hfirst
      cases hhead.symm.trans hc
      simpa using hfirst
    · rw [String.toList_append] at hc
      cases hc
      exact .inl rfl

/-- What a method writes ends the authority in front of it. -/
theorem head_tail (e : Endpoint) (args : List Argument) :
    ∀ c ∈ (e.tail args).toList.head?, c = '/' ∨ c = '?' := by
  intro c hc
  unfold tail at hc
  rw [addQuery_eq] at hc
  have hpath := head_slashed (e.path.expand (e.bindings args) .percent)
  generalize slashed (e.path.expand (e.bindings args) .percent) = path at hc hpath
  split at hc
  · exact hpath c hc
  · rw [String.toList_append, List.head?_append] at hc
    cases hhead : path.toList.head? with
    | some first =>
      rw [hhead] at hc
      exact hpath c (hhead.trans hc)
    | none =>
      -- behind nothing, the sign of the query comes first
      obtain rfl : path = "" := by
        rw [← String.ofList_toList (s := path), List.head?_eq_none_iff.1 hhead]
      rw [String.toList_append] at hc
      cases hc
      exact .inr rfl

end Texts

end Endpoint

/-! ## Reading the URL again -/

namespace Http.Uri

theorem splitScheme_http (rest : List Char) :
    splitScheme ('h' :: 't' :: 't' :: 'p' :: ':' :: '/' :: '/' :: rest) = .ok (some "http", rest) := by
  rfl

theorem splitScheme_https (rest : List Char) :
    splitScheme ('h' :: 't' :: 't' :: 'p' :: 's' :: ':' :: '/' :: '/' :: rest) = .ok (some "https", rest) := by
  rfl

/-- How a text with a scheme is read: behind the scheme, everything up to the end of the authority is the
authority, and the rest is path and query. -/
structure Reads (source : String) (uri : Uri) (scheme : String) (rest : List Char) : Prop where
  short : source.utf8ByteSize ≤ maxLength
  split : splitScheme source.toList = .ok (some scheme, rest)
  scheme : uri.scheme = some scheme
  nonempty : rest.takeWhile (fun c => !endsAuthority c) ≠ []
  checked : checkAuthority (rest.takeWhile fun c => !endsAuthority c) = .ok ()
  authority : uri.authority = some (String.ofList (rest.takeWhile fun c => !endsAuthority c))
  query : pathAndQuery (rest.dropWhile fun c => !endsAuthority c) = .ok (uri.rawPath, uri.query)

theorem reads_of_parse {source : String} {uri : Uri} (hparse : parse source = .ok uri)
    (hscheme : uri.scheme.isSome = true) : ∃ scheme rest, Reads source uri scheme rest := by
  unfold parse at hparse
  split at hparse
  · cases hparse
  rename_i hshort
  split at hparse
  · cases hparse
  · cases hparse
    cases hscheme
  · split at hparse
    · cases hparse
    · cases hparse
      cases hscheme
  · split at hparse
    · cases hparse
    · unfold authorityOnly at hparse
      dsimp only at hparse
      split at hparse
      · cases hparse
      · split at hparse
        · cases hparse
        · cases hparse
          cases hscheme
    · rename_i scheme rest hsplit
      dsimp only at hparse
      split at hparse
      · cases hparse
      · rename_i hchecked
        split at hparse
        · cases hparse
        · rename_i hauthority
          cases hquery : pathAndQuery (rest.dropWhile fun c => !endsAuthority c) with
          | error fault => rw [hquery] at hparse; cases hparse
          | ok parts =>
            rw [hquery] at hparse
            cases hparse
            exact ⟨scheme, rest, Nat.not_lt.1 hshort, hsplit, rfl, fun hnil => hauthority (by rw [hnil]; rfl),
              hchecked, rfl, hquery⟩

/-- The parts of a text that is read with a scheme. -/
theorem parts_of_parse {source : String} {uri : Uri} (hparse : parse source = .ok uri)
    (hscheme : uri.scheme.isSome = true) :
    ∃ scheme rest, splitScheme source.toList = .ok (some scheme, rest) ∧ uri.scheme = some scheme ∧
      rest.takeWhile (fun c => !endsAuthority c) ≠ [] ∧
      uri.authority = some (String.ofList (rest.takeWhile fun c => !endsAuthority c)) ∧
      pathAndQuery (rest.dropWhile fun c => !endsAuthority c) = .ok (uri.rawPath, uri.query) := by
  obtain ⟨scheme, rest, h⟩ := reads_of_parse hparse hscheme
  exact ⟨scheme, rest, h.split, h.scheme, h.nonempty, h.authority, h.query⟩

theorem takeWhile_authority {authority rest : List Char} (hauthority : ∀ c ∈ authority, endsAuthority c = false)
    (hrest : ∀ c ∈ rest.head?, endsAuthority c = true) :
    (authority ++ rest).takeWhile (fun c => !endsAuthority c) = authority ∧
      (authority ++ rest).dropWhile (fun c => !endsAuthority c) = rest := by
  have hinside : ∀ c ∈ authority, (!endsAuthority c) = true := fun c hc => by rw [hauthority c hc]; rfl
  have hends : rest.takeWhile (fun c => !endsAuthority c) = [] ∧
      rest.dropWhile (fun c => !endsAuthority c) = rest := by
    cases rest with
    | nil => exact ⟨rfl, rfl⟩
    | cons c rest => simp [hrest c rfl]
  rw [List.takeWhile_append_of_pos hinside, List.dropWhile_append_of_pos hinside, hends.1, hends.2,
    List.append_nil]
  exact ⟨rfl, rfl⟩

end Http.Uri

/-- Only a URL with a scheme and an authority is read. -/
theorem Endpoint.parse_of_parseUrl {url : String} {uri : Http.Uri} (h : parseUrl url = .ok uri) :
    Http.Uri.parse url = .ok uri ∧ uri.scheme.isSome = true := by
  unfold parseUrl at h
  split at h
  · cases h
  · rename_i read hread
    split at h
    · cases h
    · rename_i hscheme
      split at h
      · cases h
      · cases h
        exact ⟨hread, by simpa [Option.isSome_iff_ne_none] using hscheme⟩

/-- A URL of an instance, read, has the scheme and the authority of the instance; its path and its query are
what the method writes. -/
theorem Endpoint.uri_of_server {s : Server} (h : s.Plain) {e : Endpoint} {args : List Argument} {uri : Http.Uri}
    (hparse : parseUrl (e.urlText args s.baseUrl) = .ok uri) :
    uri.scheme = some s.scheme ∧ uri.authority = some s.authority ∧
      Http.Uri.pathAndQuery (e.tail args).toList = .ok (uri.rawPath, uri.query) := by
  obtain ⟨hread, hsome⟩ := parse_of_parseUrl hparse
  obtain ⟨scheme, rest, hsplit, hscheme, -, hauthority, hquery⟩ := Http.Uri.parts_of_parse hread hsome
  have hlist : (e.urlText args s.baseUrl).toList =
      (s.scheme ++ "://").toList ++ (s.authority.toList ++ (e.tail args).toList) := by
    rw [urlText_server h, s.baseUrl_eq]
    simp only [String.toList_append, List.append_assoc]
  have hserver : Http.Uri.splitScheme (e.urlText args s.baseUrl).toList =
      .ok (some s.scheme, s.authority.toList ++ (e.tail args).toList) := by
    rw [hlist]
    unfold Server.scheme
    split
    · exact Http.Uri.splitScheme_https _
    · exact Http.Uri.splitScheme_http _
  cases hserver.symm.trans hsplit
  have hrest : ∀ c ∈ (e.tail args).toList.head?, Http.Uri.endsAuthority c = true := by
    intro c hc
    rcases e.head_tail args c hc with rfl | rfl <;> decide
  obtain ⟨htake, hdrop⟩ := Http.Uri.takeWhile_authority h.authority_inside hrest
  rw [htake, String.ofList_toList] at hauthority
  rw [hdrop] at hquery
  exact ⟨hscheme, hauthority, hquery⟩

end ResilientClient
