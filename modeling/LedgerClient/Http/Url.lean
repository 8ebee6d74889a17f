/-
  URLs of the web: reading them, and adding segments to their paths.

  * `Url.ofText?` reads an absolute URL. Special characters of the path are
    percent-encoded, and its dot segments are resolved;
  * `Url.extend` adds segments to a path, each of them encoded so that it stays
    one segment;
  * an opaque path, as in `mailto:x`, has no segments (`Url.hasSegments`).
-/
import LedgerClient.Power
import LedgerClient.Text.Blank
import LedgerClient.Text.Numeral
import LedgerClient.Text.Search

namespace LedgerClient.Http

open Text

/-- An absolute URL; the path is encoded. -/
structure Url where
  scheme : String
  /-- The host, with the number of its service unless that is the usual one. -/
  authority : Option String
  path : List Char
  /-- What follows the path: the query. -/
  query : Option String
  /-- Whether the path is a hierarchy of segments. -/
  hasSegments : Bool
deriving DecidableEq

namespace Url

/-! ## Percent-encoding -/

/-- The upper-case hexadecimal digit of a value below sixteen. -/
def upperHex (n : Nat) : Char :=
  if n < 10 then digitChar n else Char.ofNat (55 + n)

/-- A character as percent signs and the hexadecimal digits of its bytes. -/
def percent (c : Char) : List Char :=
  (String.singleton c).toUTF8.toList.flatMap fun byte =>
    ['%', upperHex (byte.toNat / 16), upperHex (byte.toNat % 16)]

/-- Characters that are not printable ASCII. -/
def isOutside (c : Char) : Bool :=
  c.toNat < 0x20 || 0x7F ≤ c.toNat

/-- Characters that are encoded in a path, the grave accent among them. -/
def isEncodedInPath (c : Char) : Bool :=
  isOutside c || [' ', '"', '#', '<', '>', '?', '\x60', '\x7b', '\x7d'].contains c

/-- Characters that are encoded in a single segment. -/
def isEncodedInSegment (c : Char) : Bool :=
  isEncodedInPath c || ['/', '%', '\\'].contains c

/-- Characters that are encoded in a query. -/
def isEncodedInQuery (c : Char) : Bool :=
  isOutside c || [' ', '"', '#', '<', '>', '\''].contains c

/-- A text with some of its characters encoded. -/
def encode (isEncoded : Char → Bool) (cs : List Char) : List Char :=
  cs.flatMap fun c => if isEncoded c then percent c else [c]

/-- Tabs and line ends, which do not count in URLs. -/
def isDropped (c : Char) : Bool :=
  c == '\t' || c == '\n' || c == '\r'

/-! ## Paths -/

/-- The parts of a text between separators. -/
def splitAt (isSeparator : Char → Bool) : List Char → List (List Char)
  | [] => [[]]
  | c :: cs =>
    if isSeparator c then [] :: splitAt isSeparator cs
    else match splitAt isSeparator cs with
      | part :: parts => (c :: part) :: parts
      | [] => [[c]]

/-- Whether a segment stands for the place itself. -/
def isHere (segment : List Char) : Bool :=
  [".", "%2e"].contains (lowerAscii (String.ofList segment))

/-- Whether a segment stands for the place above. -/
def isAbove (segment : List Char) : Bool :=
  ["..", ".%2e", "%2e.", "%2e%2e"].contains (lowerAscii (String.ofList segment))

/-- The segments of a path with the dot segments resolved, in reverse. -/
def resolve (above : List (List Char)) : List (List Char) → List (List Char)
  | [] => above
  | [segment] =>
    if isAbove segment then [] :: above.drop 1
    else if isHere segment then [] :: above
    else segment :: above
  | segment :: segments =>
    if isAbove segment then resolve (above.drop 1) segments
    else if isHere segment then resolve above segments
    else resolve (segment :: above) segments

/-- The path of the given segments. -/
def joinPath (segments : List (List Char)) : List Char :=
  segments.flatMap fun segment => '/' :: segment

/-- Reads the path of a URL. -/
def readPath (isSeparator : Char → Bool) (cs : List Char) : List Char :=
  match cs with
  | [] => ['/']
  | c :: rest =>
    let segments := splitAt isSeparator (if isSeparator c then rest else c :: rest)
    joinPath (resolve [] (segments.map (encode isEncodedInPath))).reverse

/-- Adds a segment to a path; dot segments are left out. -/
def push (path : List Char) (segment : String) : List Char :=
  if segment = "." ∨ segment = ".." then path
  else
    let encoded := encode isEncodedInSegment (segment.toList.filter fun c => !isDropped c)
    if path.length = 1 then path ++ encoded else path ++ '/' :: encoded

/-- The URL with segments added to its path, behind an empty last segment if
    there is one. -/
def extend (url : Url) (segments : List String) : Url :=
  let endsEmpty := 1 < url.path.length ∧ url.path.getLast? = some '/'
  { url with path := segments.foldl push (if endsEmpty then url.path.dropLast else url.path) }

/-! ## Hosts -/

/-- Characters that no host may hold. -/
def isForbiddenInHost (c : Char) : Bool :=
  c.toNat ≤ 0x20 || c.toNat == 0x7F ||
    ['#', '%', '/', ':', '<', '>', '?', '@', '[', '\\', ']', '^', '|'].contains c

/-- A part of a numeric host: decimal, octal after `0`, hexadecimal after `0x`. -/
def numericPart? (part : List Char) : Option Nat :=
  let value (base : Nat) (cs : List Char) : Option Nat := do
    let ds ← cs.mapM hexValue?
    if ds.all (· < base) then some (ds.foldl (fun n d => n * base + d) 0) else none
  match part with
  | [] => none
  | '0' :: 'x' :: cs | '0' :: 'X' :: cs => value 16 cs
  | '0' :: c :: cs => value 8 (c :: cs)
  | cs => value 10 cs

/-- The address of a numeric host: four bytes, the last part taking those left. -/
def numericHost? (parts : List (List Char)) : Option Nat := do
  let numbers ← parts.mapM numericPart?
  let last ← numbers.getLast?
  let front := numbers.dropLast
  if numbers.length ≤ 4 ∧ front.all (· < 256) ∧ last < twoTo (8 * (4 - front.length)) then
    some (front.foldr (fun n sum => sum / 256 + n * twoTo 24) 0 + last)
  else none

/-- Whether a host has to be read as numbers. -/
def endsInNumber (parts : List (List Char)) : Bool :=
  match parts.getLast? with
  | some part => !part.isEmpty && (part.all isDigit || (numericPart? part).isSome)
  | none => false

/-- Whether a text between brackets may be a host of eight groups. -/
def isGroups (cs : List Char) : Bool :=
  cs.all (fun c => (hexValue? c).isSome || c == ':' || c == '.') && 2 ≤ cs.count ':'

/-- Reads a host. -/
def host? (special : Bool) (cs : List Char) : Option String :=
  match cs with
  | '[' :: rest =>
    if rest.getLast? = some ']' ∧ isGroups rest.dropLast then some (lowerAscii (String.ofList cs))
    else none
  | _ =>
    let parts := splitAt (· == '.') cs
    let parts := if parts.getLast? = some [] then parts.dropLast else parts
    if cs.any isForbiddenInHost then none
    else if !special then some (String.ofList cs)
    else if cs.isEmpty then none
    else if endsInNumber parts ∧ (numericHost? parts).isNone then none
    else some (lowerAscii (String.ofList cs))

/-! ## Reading -/

/-- The schemes whose URLs all have a host, with the usual numbers of their services. -/
def usualServices : List (String × Nat) :=
  [("http", 80), ("https", 443), ("ws", 80), ("wss", 443), ("ftp", 21)]

/-- Reads the number of a service: digits, or nothing. -/
def service? (cs : List Char) : Option (Option Nat) :=
  if cs.isEmpty then some none
  else if cs.all isDigit ∧ valueOf cs < twoTo 16 then some (some (valueOf cs)) else none

/-- A host and the number behind its last colon outside brackets. -/
def splitService (cs : List Char) : List Char × List Char :=
  match cutAtLast? ':' cs with
  | some (host, service) => if service.contains ']' then (cs, []) else (host, service)
  | none => (cs, [])

/-- Reads the host of a URL and the number of its service. -/
def authority? (scheme : String) (cs : List Char) : Option String := do
  let cs := match cutAtLast? '@' cs with
    | some (_, host) => host
    | none => cs
  let (host, service) := splitService cs
  let usual := usualServices.lookup scheme
  let host ← host? usual.isSome host
  match ← service? service with
  | some n => if some n = usual then some host else some (host ++ ":" ++ numeral n)
  | none => some host

/-- The scheme of a URL and what follows its colon. -/
def scheme? (cs : List Char) : Option (String × List Char) := do
  let (scheme, rest) ← cutAt? ':' cs
  let isSchemeChar (c : Char) : Bool := c.isAlphanum || c == '+' || c == '-' || c == '.'
  match scheme with
  | c :: _ =>
    if c.isAlpha ∧ scheme.all isSchemeChar then some (lowerAscii (String.ofList scheme), rest)
    else none
  | [] => none

/-- The query of a URL and what stands before it; a fragment is left out. -/
def splitQuery (cs : List Char) : List Char × Option String :=
  let cs := cs.takeWhile (· != '#')
  match cutAt? '?' cs with
  | some (before, query) => (before, some (String.ofList (encode isEncodedInQuery query)))
  | none => (cs, none)

/-- Reads a URL of a scheme whose URLs all have a host. -/
def special? (scheme : String) (cs : List Char) : Option Url := do
  let isSlash (c : Char) : Bool := c == '/' || c == '\\'
  let (before, query) := splitQuery (cs.dropWhile isSlash)
  let authority ← authority? scheme (before.takeWhile fun c => !isSlash c)
  let path := readPath isSlash (before.dropWhile fun c => !isSlash c)
  some ⟨scheme, some authority, path, query, true⟩

/-- Reads a URL of any other scheme. -/
def general? (scheme : String) (cs : List Char) : Option Url := do
  let (before, query) := splitQuery cs
  match before with
  | '/' :: '/' :: rest =>
    let authority ← authority? scheme (rest.takeWhile (· != '/'))
    match rest.dropWhile (· != '/') with
    | [] => some ⟨scheme, some authority, [], query, true⟩
    | path => some ⟨scheme, some authority, readPath (· == '/') path, query, true⟩
  | '/' :: rest => some ⟨scheme, none, readPath (· == '/') ('/' :: rest), query, true⟩
  | _ => some ⟨scheme, none, encode isOutside before, query, false⟩

/-- Reads an absolute URL. -/
def ofText? (s : String) : Option Url := do
  let isEdge (c : Char) : Bool := c.toNat ≤ 0x20
  let cs := (dropEnds isEdge s.toList).filter fun c => !isDropped c
  let (scheme, rest) ← scheme? cs
  if (usualServices.lookup scheme).isSome then special? scheme rest else general? scheme rest

/-- The path as a text. -/
def pathText (url : Url) : String :=
  String.ofList url.path

/-- What is asked of the host: the path and the query. -/
def target (url : Url) : String :=
  match url.query with
  | some query => url.pathText ++ "?" ++ query
  | none => url.pathText

end Url

end LedgerClient.Http
