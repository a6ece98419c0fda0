/-
Request URIs: an optional scheme and authority, a path and an optional query, with the rules that
say which texts are well formed.
-/
namespace ResilientClient.Http

/-- A parsed URI. -/
structure Uri where
  /-- Lower case for `http` and `https`, otherwise as written. -/
  scheme : Option String
  authority : Option String
  /-- The text before the query, as written. -/
  rawPath : String
  query : Option String
deriving DecidableEq, Repr

/-- Why a text is not a URI. -/
inductive Uri.Fault where
  | empty
  | tooLong
  | schemeTooLong
  | character
  | authority
  | format
deriving DecidableEq, Repr

/-- The wording of a fault. -/
def Uri.Fault.text : Uri.Fault → String
  | .empty => "empty string"
  | .tooLong => "uri too long"
  | .schemeTooLong => "scheme too long"
  | .character => "invalid uri character"
  | .authority => "invalid authority"
  | .format => "invalid format"

namespace Uri

/-! ## Scheme -/

/-- The characters of a scheme. -/
def isSchemeChar (c : Char) : Bool :=
  c.isAlphanum || c == '+' || c == '.' || c == '~' || c == '-'

/-- Whether the text begins with a lower-case word, in any case. -/
def startsWithFolded (word : String) (text : List Char) : Bool :=
  (text.take word.length).map Char.toLower == word.toList

/-- Splits off the scheme and the `://` after it, if the text begins with them. -/
def splitScheme (text : List Char) : Except Fault (Option String × List Char) :=
  if startsWithFolded "http://" text then .ok (some "http", text.drop 7)
  else if startsWithFolded "https://" text then .ok (some "https", text.drop 8)
  else
    let name := text.takeWhile isSchemeChar
    match text.dropWhile isSchemeChar with
    | ':' :: '/' :: '/' :: rest =>
      if name.isEmpty && rest.isEmpty then .ok (none, text)
      else if 64 < name.length then .error .schemeTooLong
      else .ok (some (String.ofList name), rest)
    | _ => .ok (none, text)

/-! ## Authority -/

/-- The characters that stand for themselves in an authority. -/
def isAuthorityChar (c : Char) : Bool :=
  c.isAlphanum || c == '!' || c == '$' || c == '&' || c == '\'' || c == '(' || c == ')' ||
    c == '*' || c == '+' || c == ',' || c == '-' || c == '.' || c == ';' || c == '=' || c == '_' ||
    c == '~'

/-- The characters that end an authority. -/
def endsAuthority (c : Char) : Bool := c == '/' || c == '?' || c == '#'

/-- What has been seen of an authority. -/
structure AuthorityScan where
  /-- The colons since the last `]` or `@`. -/
  colons : Nat := 0
  opened : Bool := false
  closed : Bool := false
  /-- Whether there was a percent sign since the last `]` or `@`. -/
  percent : Bool := false
  /-- Whether the last character was an `@`. -/
  atEnd : Bool := false

/-- Takes one character of an authority into account. -/
def AuthorityScan.step (scan : AuthorityScan) (c : Char) : Except Fault AuthorityScan :=
  let scan := { scan with atEnd := false }
  if c == ':' then
    if 8 ≤ scan.colons then .error .authority else .ok { scan with colons := scan.colons + 1 }
  else if c == '[' then
    if scan.percent || scan.opened then .error .authority else .ok { scan with opened := true }
  else if c == ']' then
    if !scan.opened || scan.closed then .error .authority
    else .ok { scan with closed := true, colons := 0, percent := false }
  else if c == '@' then .ok { scan with atEnd := true, colons := 0, percent := false }
  else if c == '%' then .ok { scan with percent := true }
  else if isAuthorityChar c then .ok scan
  else .error .character

/-- Checks an authority: brackets are paired, at most one colon precedes the port, percent signs
stand only in the user part or between brackets, and something follows an `@`. -/
def checkAuthority (authority : List Char) : Except Fault Unit := do
  let scan ← authority.foldlM AuthorityScan.step {}
  if scan.opened != scan.closed || 1 < scan.colons || scan.atEnd || scan.percent then
    .error .authority
  else .ok ()

/-! ## Path and query -/

/-- The characters of a path. -/
def isPathChar (c : Char) : Bool :=
  let n := c.toNat
  n == 0x21 || n == 0x22 || (0x24 ≤ n && n ≤ 0x3B) || n == 0x3D || (0x40 ≤ n && n ≤ 0x5F) ||
    (0x61 ≤ n && n ≤ 0x7E) || 0x80 ≤ n

/-- The characters of a query. -/
def isQueryChar (c : Char) : Bool :=
  let n := c.toNat
  n == 0x21 || (0x24 ≤ n && n ≤ 0x3B) || n == 0x3D || (0x3F ≤ n && n ≤ 0x7E) || 0x80 ≤ n

/-- Splits a text at its first `c`, which belongs to neither part. -/
def splitAt (c : Char) (text : List Char) : List Char × Option (List Char) :=
  match text.dropWhile (· != c) with
  | [] => (text, none)
  | _ :: rest => (text.takeWhile (· != c), some rest)

/-- Reads a path and a query; a fragment is dropped unread. -/
def pathAndQuery (text : List Char) : Except Fault (String × Option String) :=
  let path := text.takeWhile fun c => c != '?' && c != '#'
  if !path.all isPathChar then .error .character
  else
    match text.dropWhile fun c => c != '?' && c != '#' with
    | '?' :: rest =>
      let query := rest.takeWhile (· != '#')
      if !query.all isQueryChar then .error .character
      else .ok (String.ofList path, some (String.ofList query))
    | _ => .ok (String.ofList path, none)

/-! ## Whole texts -/

/-- The longest text that is read, in bytes. -/
def maxLength : Nat := 65534

/-- A text that is an authority and nothing else. -/
def authorityOnly (text : List Char) : Except Fault Uri :=
  let authority := text.takeWhile fun c => !endsAuthority c
  match checkAuthority authority with
  | .error fault => .error fault
  | .ok () =>
    if authority.length ≠ text.length then .error .format
    else .ok ⟨none, some (String.ofList text), "", none⟩

/-- Reads a URI: a path alone, an authority alone, or a scheme with an authority, a path and a
query. -/
def parse (source : String) : Except Fault Uri :=
  if maxLength < source.utf8ByteSize then .error .tooLong
  else
    match source.toList with
    | [] => .error .empty
    | ['*'] => .ok ⟨none, none, "*", none⟩
    | '/' :: rest =>
      match pathAndQuery ('/' :: rest) with
      | .error fault => .error fault
      | .ok (path, query) => .ok ⟨none, none, path, query⟩
    | text =>
      match splitScheme text with
      | .error fault => .error fault
      | .ok (none, _) => authorityOnly text
      | .ok (some scheme, rest) =>
        let authority := rest.takeWhile fun c => !endsAuthority c
        match checkAuthority authority with
        | .error fault => .error fault
        | .ok () =>
          if authority.isEmpty then .error .format
          else
            match pathAndQuery (rest.dropWhile fun c => !endsAuthority c) with
            | .error fault => .error fault
            | .ok (path, query) =>
              .ok ⟨some scheme, some (String.ofList authority), path, query⟩

/-! ## Parts -/

/-- The path; an empty one is the root, except for an authority that stands alone. -/
def path (uri : Uri) : String :=
  if uri.rawPath.isEmpty && (uri.scheme.isSome || uri.query.isSome) then "/" else uri.rawPath

/-- The written form of a URI. -/
def text (uri : Uri) : String :=
  ((uri.scheme.map (· ++ "://")).getD "") ++ uri.authority.getD "" ++ uri.path ++
    ((uri.query.map ("?" ++ ·)).getD "")

/-- The part of an authority after its last `@`. -/
def hostAndPort (authority : String) : List Char :=
  (authority.toList.reverse.takeWhile (· != '@')).reverse

/-- The host: a bracketed address with its brackets, or the text up to a colon. -/
def host? (uri : Uri) : Option String :=
  uri.authority.map fun authority =>
    match hostAndPort authority with
    | '[' :: rest => String.ofList ('[' :: rest.takeWhile (· != ']') ++ [']'])
    | text => String.ofList (text.takeWhile (· != ':'))

/-- A decimal number below 65536, perhaps after a plus sign. -/
def port16? (digits : List Char) : Option Nat :=
  let digits := match digits with
    | '+' :: rest => rest
    | _ => digits
  if digits.isEmpty || !digits.all Char.isDigit then none
  else
    let n := digits.foldl (fun n c => 10 * n + (c.toNat - 48)) 0
    if n < 65536 then some n else none

/-- The port: the number after the last colon of the authority. -/
def port? (uri : Uri) : Option Nat :=
  uri.authority.bind fun authority =>
    if authority.toList.contains ':' then
      port16? (authority.toList.reverse.takeWhile (· != ':')).reverse
    else none

end Uri

end ResilientClient.Http
