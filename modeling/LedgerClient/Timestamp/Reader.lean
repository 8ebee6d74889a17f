/-
  Reading points in time: a date, a `T` or a space, a time with an optional
  fraction, and a zone.

  * `Timestamp.ofText?` reads a whole text. Blanks are allowed before every
    number and every separator; the fraction has at least one digit, and those
    after the ninth are skipped; the zone is `Z`, `UTC` or an offset of hours
    and minutes.
-/
import LedgerClient.Timestamp

namespace LedgerClient.Timestamp

open Text

def skipBlanks (cs : List Char) : List Char :=
  cs.dropWhile isBlank

/-- One to `width` digits, and what follows them. -/
def number? (width : Nat) (cs : List Char) : Option (Nat × List Char) :=
  let ds := (cs.take width).takeWhile isDigit
  if ds.isEmpty then none else some (valueOf ds, cs.drop ds.length)

/-- A number of at most two digits behind blanks. -/
def pair? (cs : List Char) : Option (Nat × List Char) :=
  number? 2 (skipBlanks cs)

/-- A year behind blanks: at most four digits, or a sign and any number of them. -/
def year? (cs : List Char) : Option (Int × List Char) :=
  match skipBlanks cs with
  | '-' :: rest => (number? rest.length rest).map fun (n, rest) => (-(n : Int), rest)
  | '+' :: rest => (number? rest.length rest).map fun (n, rest) => ((n : Int), rest)
  | rest => (number? 4 rest).map fun (n, rest) => ((n : Int), rest)

/-- A separator behind blanks. -/
def separator? (c : Char) (cs : List Char) : Option (List Char) :=
  match skipBlanks cs with
  | d :: rest => if c = d then some rest else none
  | [] => none

/-- Nanoseconds behind a point, where there is one. -/
def fraction? : List Char → Option (Nat × List Char)
  | '.' :: rest => do
    let ds := (rest.take 9).takeWhile isDigit
    if ds.isEmpty then none
    else some (valueOf ds * tenTo (9 - ds.length), (rest.drop ds.length).dropWhile isDigit)
  | rest => some (0, rest)

/-- Two ASCII digits as a number. -/
def twoDigits? : List Char → Option (Nat × List Char)
  | a :: b :: rest =>
    if isDigit a && isDigit b then some (digitValue a * 10 + digitValue b, rest) else none
  | _ => none

/-- The minutes of an offset behind its sign. Colons and blanks may stand
    between hours and minutes. -/
def offsetMinutes? (cs : List Char) : Option (Nat × List Char) := do
  let (hours, rest) ← twoDigits? cs
  let (minutes, rest) ← twoDigits? (rest.dropWhile fun c => c == ':' || isBlank c)
  if minutes < 60 ∧ hours < 24 then some (hours * 60 + minutes, rest) else none

/-- The minutes a zone is ahead of UTC. -/
def zone? (cs : List Char) : Option (Int × List Char) :=
  match cs with
  | 'Z' :: rest | 'z' :: rest => some (0, rest)
  | '+' :: rest => (offsetMinutes? rest).map fun (n, rest) => ((n : Int), rest)
  | '-' :: rest | '\u2212' :: rest => (offsetMinutes? rest).map fun (n, rest) => (-(n : Int), rest)
  | a :: b :: c :: rest =>
    if (a == 'U' || a == 'u') && (b == 'T' || b == 't') && (c == 'C' || c == 'c') then
      some (0, rest)
    else none
  | _ => none

/-- A date and what follows it. -/
def date? (cs : List Char) : Option (Date × List Char) := do
  let (year, cs) ← year? cs
  let cs ← separator? '-' cs
  let (month, cs) ← pair? cs
  let cs ← separator? '-' cs
  let (day, cs) ← pair? cs
  pure (⟨year, month, day⟩, cs)

/-- A time of day on the given date and what follows it. -/
def time? (date : Date) (cs : List Char) : Option (Timestamp × List Char) := do
  let (hour, cs) ← pair? cs
  let cs ← separator? ':' cs
  let (minute, cs) ← pair? cs
  let cs ← separator? ':' cs
  let (second, cs) ← pair? cs
  let (nano, cs) ← fraction? cs
  pure (⟨date, hour, minute, second, nano⟩, cs)

/-- Reads a whole text. -/
def ofText? (s : String) : Option Timestamp := do
  let (date, cs) ← date? s.toList
  let cs ← match cs with
    | 'T' :: cs | 't' :: cs | ' ' :: cs => some cs
    | _ => none
  let (shown, cs) ← time? date cs
  let (offset, cs) ← zone? (skipBlanks cs)
  if shown.isValid && (skipBlanks cs).isEmpty then shown.atOffset? offset else none

end LedgerClient.Timestamp
