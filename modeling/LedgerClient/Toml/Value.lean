/-
  Keys and values of TOML.

  * `key?` reads a bare or quoted key, `dottedKey?` a path of them;
  * `value?` reads a string of any of the four kinds, an integer of 64 bits in
    four bases, a float, a truth value, a date or time, an array or an inline
    table. A float is a binary64 value, a date or time an object that holds
    its text.
-/
import LedgerClient.Toml.Table
import LedgerClient.Timestamp

namespace LedgerClient.Toml

open Text

/-! ## Blanks and line ends -/

def skipBlank (cs : List Char) : List Char :=
  cs.dropWhile fun c => c == ' ' || c == '\t'

/-- A control character that no string and no comment may hold. -/
def isForbidden (c : Char) : Bool :=
  (c.toNat < 0x20 && c != '\t') || c.toNat == 0x7F

/-- What follows a line end. -/
def lineEnd? : List Char → Option (List Char)
  | '\n' :: rest => some rest
  | '\r' :: '\n' :: rest => some rest
  | _ => none

/-- What follows a comment, where one starts here. -/
def skipComment? : List Char → Option (List Char)
  | '#' :: rest =>
    let body := rest.takeWhile (· != '\n')
    let body' := if body.getLast? == some '\r' then body.dropLast else body
    if body'.any isForbidden then none
    else some (rest.drop body'.length)
  | rest => some rest

/-- What follows blanks, comments and line ends. -/
def skipLines? : (fuel : Nat) → List Char → Option (List Char)
  | 0, _ => none
  | fuel + 1, cs => do
    let rest ← skipComment? (skipBlank cs)
    match lineEnd? rest with
    | some rest => skipLines? fuel rest
    | none => some rest

/-! ## Strings -/

/-- The character of a hexadecimal escape of `n` digits, and what follows it. -/
def hexEscape? (n : Nat) (cs : List Char) : Option (Char × List Char) := do
  let ds ← (cs.take n).mapM hexValue?
  let code := ds.foldl (fun acc d => acc * 16 + d) 0
  if ds.length = n ∧ code.isValidChar then some (Char.ofNat code, cs.drop n) else none

/-- The character of an escape behind its backslash, and what follows it. -/
def escape? : List Char → Option (Char × List Char)
  | 'b' :: rest => some (Char.ofNat 8, rest)
  | 't' :: rest => some ('\t', rest)
  | 'n' :: rest => some ('\n', rest)
  | 'f' :: rest => some (Char.ofNat 12, rest)
  | 'r' :: rest => some ('\r', rest)
  | '"' :: rest => some ('"', rest)
  | '\\' :: rest => some ('\\', rest)
  | 'u' :: rest => hexEscape? 4 rest
  | 'U' :: rest => hexEscape? 8 rest
  | _ => none

/-- The rest of a basic string on one line. -/
def basic? : (fuel : Nat) → List Char → Option (List Char × List Char)
  | 0, _ | _ + 1, [] => none
  | fuel + 1, c :: cs =>
    if c = '"' then some ([], cs)
    else if c = '\\' then do
      let (ch, rest) ← escape? cs
      let (s, rest) ← basic? fuel rest
      pure (ch :: s, rest)
    else if isForbidden c then none
    else (basic? fuel cs).map fun (s, rest) => (c :: s, rest)

/-- The rest of a literal string on one line. -/
def literal? : List Char → Option (List Char × List Char)
  | [] => none
  | c :: cs =>
    if c = '\'' then some ([], cs)
    else if isForbidden c then none
    else (literal? cs).map fun (s, rest) => (c :: s, rest)

/-- Where a run of quotes closes a string of several lines: the quotes that
    still belong to it, and what follows it. -/
def closing? (quote : Char) (cs : List Char) : Option (List Char × List Char) :=
  let n := (cs.takeWhile (· == quote)).length
  if 3 ≤ n ∧ n ≤ 5 then some (List.replicate (n - 3) quote, cs.drop n) else none

/-- What follows a backslash at the end of a line: the next character that is
    neither blank nor a line end. -/
def continued? (cs : List Char) : Option (List Char) :=
  (lineEnd? (skipBlank cs)).map fun rest =>
    rest.dropWhile fun c => c == ' ' || c == '\t' || c == '\n' || c == '\r'

/-- The rest of a string of several lines; `escapes` tells basic from literal ones. -/
def lines? (quote : Char) (escapes : Bool) : (fuel : Nat) → List Char →
    Option (List Char × List Char)
  | 0, _ | _ + 1, [] => none
  | fuel + 1, c :: cs =>
    match closing? quote (c :: cs) with
    | some done => some done
    | none =>
      if escapes && c == '\\' then
        match continued? cs with
        | some rest => lines? quote escapes fuel rest
        | none => do
          let (ch, rest) ← escape? cs
          let (s, rest) ← lines? quote escapes fuel rest
          pure (ch :: s, rest)
      else match lineEnd? (c :: cs) with
        | some rest => (lines? quote escapes fuel rest).map fun (s, rest) => ('\n' :: s, rest)
        | none =>
          if isForbidden c then none
          else (lines? quote escapes fuel cs).map fun (s, rest) => (c :: s, rest)

/-- A string of any kind. -/
def string? (cs : List Char) : Option (String × List Char) := do
  let fuel := cs.length + 1
  let (s, rest) ← match cs with
    | '"' :: '"' :: '"' :: rest => lines? '"' true fuel ((lineEnd? rest).getD rest)
    | '\'' :: '\'' :: '\'' :: rest => lines? '\'' false fuel ((lineEnd? rest).getD rest)
    | '"' :: rest => basic? fuel rest
    | '\'' :: rest => literal? rest
    | _ => none
  pure (String.ofList s, rest)

/-! ## Keys -/

/-- A character of a bare key. -/
def isBare (c : Char) : Bool :=
  c.isAlphanum || c == '_' || c == '-'

/-- A bare key, or a quoted one on one line. -/
def key? (cs : List Char) : Option (String × List Char) :=
  match cs with
  | '"' :: rest => (basic? (rest.length + 1) rest).map fun (s, r) => (String.ofList s, r)
  | '\'' :: rest => (literal? rest).map fun (s, r) => (String.ofList s, r)
  | _ =>
    let name := cs.takeWhile isBare
    if name.isEmpty then none else some (String.ofList name, cs.dropWhile isBare)

/-- Keys with points between them. -/
def dottedKey? : (fuel : Nat) → List Char → Option (List String × List Char)
  | 0, _ => none
  | fuel + 1, cs => do
    let (name, rest) ← key? (skipBlank cs)
    match skipBlank rest with
    | '.' :: rest =>
      let (path, rest) ← dottedKey? fuel rest
      pure (name :: path, rest)
    | rest => pure ([name], rest)

/-! ## Numbers and dates -/

/-- Digits with single underscores between them. -/
def withoutUnderscores? (digit : Char → Bool) : List Char → Option (List Char)
  | [] => none
  | [c] => if digit c then some [c] else none
  | c :: '_' :: rest => if digit c then (withoutUnderscores? digit rest).map (c :: ·) else none
  | c :: rest => if digit c then (withoutUnderscores? digit rest).map (c :: ·) else none

/-- The number of digits in a base of at most sixteen. -/
def inBase? (base : Nat) (cs : List Char) : Option Nat := do
  let ds ← withoutUnderscores? (fun c => (hexValue? c).any (· < base)) cs
  pure (ds.foldl (fun n c => n * base + (hexValue? c).getD 0) 0)

/-- Decimal digits without a superfluous zero. -/
def decimalDigits? (cs : List Char) : Option (List Char) := do
  let ds ← withoutUnderscores? isDigit cs
  if ds.head? = some '0' ∧ ds.length > 1 then none else some ds

/-- A sign in front of a number, and what follows it. -/
def signed (cs : List Char) : Bool × List Char :=
  match cs with
  | '-' :: rest => (true, rest)
  | '+' :: rest => (false, rest)
  | rest => (false, rest)

/-- An integer of 64 bits. -/
def integer? (cs : List Char) : Option Int :=
  let n? : Option Int := match cs with
    | '0' :: 'x' :: rest => (inBase? 16 rest).map Int.ofNat
    | '0' :: 'o' :: rest => (inBase? 8 rest).map Int.ofNat
    | '0' :: 'b' :: rest => (inBase? 2 rest).map Int.ofNat
    | _ =>
      let (negative, body) := signed cs
      (decimalDigits? body).map fun ds => if negative then -(valueOf ds : Int) else valueOf ds
  n?.filter fun n => -(twoTo 63 : Int) ≤ n && n < (twoTo 63 : Int)

/-- A float: digits with a fraction or an exponent or both, or a special value. -/
def float? (cs : List Char) : Option Float := do
  let (negative, body) := signed cs
  let sign (x : Float) : Float := if negative then -x else x
  if body = "inf".toList then return sign (1.0 / 0.0)
  if body = "nan".toList then return sign (0.0 / 0.0)
  let mantissa := body.takeWhile fun c => c != 'e' && c != 'E'
  let exponent ← match body.dropWhile fun c => c != 'e' && c != 'E' with
    | [] => some (0 : Int)
    | _ :: e => do
      let (down, ds) := signed e
      let ds ← withoutUnderscores? isDigit ds
      pure (if down then -(valueOf ds : Int) else valueOf ds)
  let whole ← decimalDigits? (mantissa.takeWhile (· != '.'))
  let fraction ← match mantissa.dropWhile (· != '.') with
    | [] => some []
    | _ :: f => withoutUnderscores? isDigit f
  let e := min (max (exponent - fraction.length) (-100000)) 100000
  pure (sign (Float.ofScientific (valueOf (whole ++ fraction)) (e < 0) e.natAbs))

/-- Whether a text has the given pattern, in which `0` stands for any digit. -/
def hasPattern : List Char → List Char → Bool
  | [], [] => true
  | p :: ps, c :: cs => (if p = '0' then isDigit c else p = c) && hasPattern ps cs
  | _, _ => false

/-- The number of the two digits at a place. -/
def pairAt (place : Nat) (cs : List Char) : Nat :=
  valueOf ((cs.drop place).take 2)

/-- Whether a text is a date of the calendar. -/
def isDate (cs : List Char) : Bool :=
  hasPattern "0000-00-00".toList cs &&
    (Date.mk (valueOf (cs.take 4)) (pairAt 5 cs) (pairAt 8 cs)).isValid

/-- Whether a text is a time of day with an optional fraction. -/
def isTime (cs : List Char) : Bool :=
  hasPattern "00:00:00".toList (cs.take 8) && pairAt 0 cs < 24 && pairAt 3 cs < 60 &&
    pairAt 6 cs ≤ 60 &&
    match cs.drop 8 with
    | [] => true
    | '.' :: f => !f.isEmpty && f.all isDigit
    | _ => false

/-- Whether a text is nothing, a `Z`, or an offset of hours and minutes. -/
def isZone : List Char → Bool
  | [] | ['Z'] | ['z'] => true
  | sign :: cs =>
    (sign == '+' || sign == '-') && hasPattern "00:00".toList cs && pairAt 0 cs < 24 &&
      pairAt 3 cs < 60

/-- Whether a text is a date, a time, or both with an optional zone. -/
def isMoment (cs : List Char) : Bool :=
  if isDate (cs.take 10) then
    match cs.drop 10 with
    | [] => true
    | c :: rest =>
      (c == 'T' || c == 't' || c == ' ') &&
        (let time := rest.takeWhile fun c => isDigit c || c == ':' || c == '.'
         isTime time && isZone (rest.drop time.length))
  else isTime cs

/-- A number, truth value, date or time, and what follows it. -/
def scalar? (cs : List Char) : Option (Json × List Char) :=
  let isWord (c : Char) : Bool := c.isAlphanum || ['_', '-', '+', '.', ':'].contains c
  let word := cs.takeWhile isWord
  let rest := cs.dropWhile isWord
  if word = "true".toList then some (.bool true, rest)
  else if word = "false".toList then some (.bool false, rest)
  else match integer? word, float? word with
    | some n, _ => some (.int n, rest)
    | none, some x => some (.real x, rest)
    | none, none =>
      let (moment, rest) := match rest with
        | ' ' :: after =>
          let time := after.takeWhile isWord
          if isDate word && isMoment (word ++ ' ' :: time) then
            (word ++ ' ' :: time, after.drop time.length)
          else (word, rest)
        | _ => (word, rest)
      if isMoment moment then some (.obj [("moment", .str (String.ofList moment))], rest) else none

/-! ## Values -/

mutual

/-- A value and what follows it; `depth` bounds the arrays and inline tables
    inside each other. -/
def value? : (fuel depth : Nat) → List Char → Option (Json × List Char)
  | 0, _, _ => none
  | fuel + 1, depth, cs =>
    match cs with
    | '[' :: rest =>
      match depth with
      | 0 => none
      | depth + 1 => (elements? fuel depth rest).map fun (items, r) => (.arr items, r)
    | '\x7b' :: rest =>
      match depth with
      | 0 => none
      | depth + 1 =>
        match skipBlank rest with
        | '\x7d' :: rest => some (.obj [], rest)
        | rest =>
          (inline? fuel depth [] rest).map fun (entries, r) => (.obj (entriesToJson entries), r)
    | '"' :: _ | '\'' :: _ => (string? cs).map fun (s, r) => (.str s, r)
    | _ => scalar? cs

/-- The rest of an array. -/
def elements? : (fuel depth : Nat) → List Char → Option (List Json × List Char)
  | 0, _, _ => none
  | fuel + 1, depth, cs => do
    match ← skipLines? (cs.length + 1) cs with
    | ']' :: rest => pure ([], rest)
    | rest =>
      let (item, rest) ← value? fuel depth rest
      match ← skipLines? (rest.length + 1) rest with
      | ',' :: rest =>
        let (items, rest) ← elements? fuel depth rest
        pure (item :: items, rest)
      | ']' :: rest => pure ([item], rest)
      | _ => none

/-- The rest of an inline table, whose earlier entries are given. -/
def inline? : (fuel depth : Nat) → Entries → List Char → Option (Entries × List Char)
  | 0, _, _, _ => none
  | fuel + 1, depth, entries, cs => do
    let (path, rest) ← dottedKey? (cs.length + 1) cs
    match rest with
    | '=' :: rest =>
      let (j, rest) ← value? fuel depth (skipBlank rest)
      let entries ← insert? .header j path entries
      match skipBlank rest with
      | ',' :: rest => inline? fuel depth entries rest
      | '\x7d' :: rest => pure (entries, rest)
      | _ => none
    | _ => none

end

end LedgerClient.Toml
