/-
  Reading JSON, strictly: no trailing data, no trailing comma, no leading
  zeros, no unpaired surrogates, at most 127 arrays and objects inside each
  other.

  * `Json.read?` reads a whole text;
  * a number is an integer where it is written as one and fits, else the
    binary64 value of its significant digits (as many as fit 64 bits), scaled
    by a power of ten; a number beyond the range of binary64 is refused.
-/
import LedgerClient.Json
import LedgerClient.Text.Numeral

namespace LedgerClient.Json

open Text

/-- The white space of JSON. -/
def isSpace (c : Char) : Bool :=
  c == ' ' || c == '\n' || c == '\t' || c == '\r'

def skipSpace (cs : List Char) : List Char :=
  cs.dropWhile isSpace

/-! ## Strings -/

/-- Four hexadecimal digits and what follows them. -/
def hex4? : List Char → Option (Nat × List Char)
  | a :: b :: c :: d :: rest => do
    let a ← hexValue? a
    let b ← hexValue? b
    let c ← hexValue? c
    let d ← hexValue? d
    pure (((a * 16 + b) * 16 + c) * 16 + d, rest)
  | _ => none

/-- The character of an escape letter other than `u`. -/
def unescape? : Char → Option Char
  | '"' => some '"'
  | '\\' => some '\\'
  | '/' => some '/'
  | 'b' => some (Char.ofNat 8)
  | 'f' => some (Char.ofNat 12)
  | 'n' => some '\n'
  | 'r' => some '\r'
  | 't' => some '\t'
  | _ => none

/-- The character of a `u` escape, behind its letter: a pair of surrogates
    stands for one character, and a surrogate alone for none. -/
def unicodeEscape? (cs : List Char) : Option (Char × List Char) := do
  let (unit, rest) ← hex4? cs
  if 0xD800 ≤ unit ∧ unit < 0xDC00 then
    match rest with
    | '\\' :: 'u' :: rest' =>
      let (low, rest'') ← hex4? rest'
      if 0xDC00 ≤ low ∧ low < 0xE000 then
        some (Char.ofNat (0x10000 + (unit - 0xD800) * 0x400 + (low - 0xDC00)), rest'')
      else none
    | _ => none
  else if 0xDC00 ≤ unit ∧ unit < 0xE000 then none
  else some (Char.ofNat unit, rest)

/-- The characters of a string up to its closing quote, and what follows it. -/
def readString : (fuel : Nat) → List Char → Option (List Char × List Char)
  | 0, _ => none
  | _ + 1, [] => none
  | fuel + 1, c :: cs =>
    if c = '"' then some ([], cs)
    else if c = '\\' then
      match cs with
      | 'u' :: rest => do
        let (ch, rest') ← unicodeEscape? rest
        let (s, rest'') ← readString fuel rest'
        pure (ch :: s, rest'')
      | l :: rest => do
        let ch ← unescape? l
        let (s, rest') ← readString fuel rest
        pure (ch :: s, rest')
      | [] => none
    else if c.toNat < 0x20 then none
    else (readString fuel cs).map fun (s, rest) => (c :: s, rest)

/-! ## Numbers -/

/-- The power of ten as a binary64 value. -/
def powerOfTen (n : Nat) : Float :=
  Float.ofScientific 1 false n

/-- A value divided by a power of ten, in steps of at most 308 places. -/
def divideByPower (x : Float) (places : Nat) : Float :=
  if places ≤ 308 then x / powerOfTen places
  else if x == 0 then x
  else divideByPower (x / powerOfTen 308) (places - 308)
termination_by places
decreasing_by omega

/-- The binary64 value of `significand · 10^exponent`, where it is in range. -/
def scaled? (significand : Nat) (exponent : Int) : Option Float :=
  let x := (UInt64.ofNat significand).toFloat
  if exponent < 0 then some (divideByPower x exponent.natAbs)
  else if exponent ≤ 308 then
    let y := x * powerOfTen exponent.toNat
    if y.isInf then none else some y
  else if significand = 0 then some x
  else none

/-- Reads digits into a significand of 64 bits; from the first digit that does
    not fit on, digits are only counted. -/
def gather (significand dropped : Nat) : List Char → Nat × Nat
  | [] => (significand, dropped)
  | c :: cs =>
    let next := significand * 10 + digitValue c
    if dropped = 0 ∧ next < twoTo 64 then gather next 0 cs
    else gather significand (dropped + 1) cs

/-- The exponent of a number, where it has one, and what follows it. -/
def exponentPart? : List Char → Option (Option Int × List Char)
  | c :: cs =>
    if c = 'e' || c = 'E' then
      let (negative, rest) := match cs with
        | '-' :: r => (true, r)
        | '+' :: r => (false, r)
        | r => (false, r)
      let ds := rest.takeWhile isDigit
      let exponent : Int := if negative then -(valueOf ds : Int) else valueOf ds
      if ds.isEmpty then none else some (some exponent, rest.dropWhile isDigit)
    else some (none, c :: cs)
  | [] => some (none, [])

/-- The fraction digits of a number, where it has a point, and what follows them. -/
def fractionPart? : List Char → Option (Option (List Char) × List Char)
  | '.' :: cs =>
    let ds := cs.takeWhile isDigit
    if ds.isEmpty then none else some (some ds, cs.dropWhile isDigit)
  | cs => some (none, cs)

/-- The integer part of a number: a single zero, or digits not starting with one. -/
def wholePart? (cs : List Char) : Option (List Char × List Char) :=
  match cs.takeWhile isDigit, cs.dropWhile isDigit with
  | [], _ => none
  | ['0'], rest => some (['0'], rest)
  | '0' :: _, _ => none
  | ds, rest => some (ds, rest)

/-- The number of the given sign and parts. An exponent is capped at a bound
    far outside the range. -/
def number? (negative : Bool) (whole : List Char) (fraction : Option (List Char))
    (exponent : Option Int) : Option Json :=
  let value : Int := if negative then -(valueOf whole : Int) else valueOf whole
  if fraction.isNone && exponent.isNone && fits value && !(negative && value == 0) then
    some (int value)
  else
    let ds := fraction.getD []
    let (head, skipped) := gather 0 0 whole
    let (significand, unread) := gather head 0 ds
    let places : Int := (skipped : Int) - (ds.length - unread : Nat)
    let e := min (max (exponent.getD 0) (-100000)) 100000
    (scaled? significand (e + places)).map fun x => real (if negative then -x else x)

/-- A number and what follows it. -/
def readNumber (cs : List Char) : Option (Json × List Char) := do
  let (negative, body) := match cs with
    | '-' :: r => (true, r)
    | r => (false, r)
  let (whole, rest) ← wholePart? body
  let (fraction, rest) ← fractionPart? rest
  let (exponent, rest) ← exponentPart? rest
  let n ← number? negative whole fraction exponent
  pure (n, rest)

/-! ## Documents -/

mutual

/-- A value, after white space, and what follows it. `depth` bounds the arrays
    and objects that may still be opened. -/
def readValue : (fuel depth : Nat) → List Char → Option (Json × List Char)
  | 0, _, _ => none
  | fuel + 1, depth, cs =>
    match skipSpace cs with
    | 'n' :: 'u' :: 'l' :: 'l' :: rest => some (null, rest)
    | 't' :: 'r' :: 'u' :: 'e' :: rest => some (bool true, rest)
    | 'f' :: 'a' :: 'l' :: 's' :: 'e' :: rest => some (bool false, rest)
    | '"' :: rest => do
      let (s, rest) ← readString (rest.length + 1) rest
      pure (str (String.ofList s), rest)
    | '[' :: rest =>
      match depth with
      | 0 => none
      | depth + 1 =>
        match skipSpace rest with
        | ']' :: rest => some (arr [], rest)
        | rest => do
          let (items, rest) ← readItems fuel depth rest
          pure (arr items, rest)
    | '\x7b' :: rest =>
      match depth with
      | 0 => none
      | depth + 1 =>
        match skipSpace rest with
        | '\x7d' :: rest => some (obj [], rest)
        | rest => do
          let (members, rest) ← readMembers fuel depth rest
          pure (obj members, rest)
    | rest => readNumber rest

/-- One or more elements and the closing bracket. -/
def readItems : (fuel depth : Nat) → List Char → Option (List Json × List Char)
  | 0, _, _ => none
  | fuel + 1, depth, cs => do
    let (item, rest) ← readValue fuel depth cs
    match skipSpace rest with
    | ',' :: rest =>
      let (items, rest) ← readItems fuel depth rest
      pure (item :: items, rest)
    | ']' :: rest => pure ([item], rest)
    | _ => none

/-- One or more members and the closing brace. -/
def readMembers : (fuel depth : Nat) → List Char → Option (List (String × Json) × List Char)
  | 0, _, _ => none
  | fuel + 1, depth, cs => do
    match skipSpace cs with
    | '"' :: rest =>
      let (key, rest) ← readString (rest.length + 1) rest
      match skipSpace rest with
      | ':' :: rest =>
        let (value, rest) ← readValue fuel depth rest
        match skipSpace rest with
        | ',' :: rest =>
          let (members, rest) ← readMembers fuel depth rest
          pure ((String.ofList key, value) :: members, rest)
        | '\x7d' :: rest => pure ([(String.ofList key, value)], rest)
        | _ => none
      | _ => none
    | _ => none

end

/-- The greatest number of arrays and objects inside each other. -/
def maxDepth : Nat := 127

/-- Reads a whole text as one document. -/
def read? (s : String) : Option Json :=
  let cs := s.toList
  match readValue (2 * cs.length + 2) maxDepth cs with
  | some (j, rest) => if (skipSpace rest).isEmpty then some j else none
  | none => none

end LedgerClient.Json
