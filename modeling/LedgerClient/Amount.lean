/-
  Amounts: non-negative decimals with at most eighteen places, counted in units
  of 10⁻¹⁸ and bounded by 2¹⁹¹ − 1 units.

  * `Amount.parse` reads `digits` or `digits.fraction` and never rounds. Digits
    of another script may have more bytes than an amount has places, and then
    filling up the fraction stops the program: `Amount.overrun`;
  * `Amount.text` is the canonical text: no superfluous zeros, no sign, no
    exponent;
  * `Amount.checkedAdd` is the exact sum where it is an amount.
-/
import LedgerClient.Fault
import LedgerClient.Power
import LedgerClient.Text.Numeral

namespace LedgerClient

open Text

/-- A non-negative count of 10⁻¹⁸ units. -/
@[ext] structure Amount where
  atto : Nat
  atto_lt : atto < twoTo 191
deriving DecidableEq

namespace Amount

/-- The number of decimal places. -/
def places : Nat := 18

/-- The number of units in one whole. -/
def unit : Nat := tenTo places

def zero : Amount := ⟨0, by decide⟩

instance : Inhabited Amount := ⟨zero⟩

def isZero (a : Amount) : Bool := a.atto == 0

/-! ## Text -/

/-- The number with a whole part and the given places, less the zeros at their end. -/
def assemble (whole fraction : List Char) : List Char :=
  match dropEndWhile (· == '0') fraction with
  | [] => whole
  | fraction => whole ++ '.' :: fraction

/-- The characters of the canonical text of a count of units: its last eighteen digits are
    the places, and at least one digit stands in front of them. -/
def charsOf (atto : Nat) : List Char :=
  let ds := padLeft (places + 1) (digits atto)
  assemble (ds.take (ds.length - places)) (ds.drop (ds.length - places))

/-- The canonical text of a count of units, also of one beyond the range. -/
def textOf (atto : Nat) : String :=
  String.ofList (charsOf atto)

/-- The canonical text of an amount. -/
def text (a : Amount) : String :=
  textOf a.atto

/-! ## Construction -/

/-- The amount of a count of units, where it is in range. -/
def ofAtto? (atto : Nat) : Option Amount :=
  if h : atto < twoTo 191 then some ⟨atto, h⟩ else none

/-- The amount of a count of units; a count out of range is quoted. -/
def ofAtto (atto : Nat) : Except Fault Amount :=
  match ofAtto? atto with
  | some a => .ok a
  | none => .error (.invalidAmount (textOf atto ++ " exceeds the ledger Decimal range"))

/-- A number of whole units below 2⁶⁴. -/
def ofWhole (n : Nat) (h : n < twoTo 64) : Amount :=
  ⟨n * unit, Nat.lt_of_lt_of_le (Nat.mul_lt_mul_of_pos_right h (by decide)) (by decide)⟩

/-- The sum of two amounts, where it is in range. -/
def checkedAdd (a b : Amount) : Option Amount :=
  ofAtto? (a.atto + b.atto)

/-! ## Reading -/

/-- The whole part and the fraction of a number in plain notation. The digits of every
    script count here. -/
def parts? (cs : List Char) : Option (List Char × List Char) :=
  let whole := cs.takeWhile isDecimalDigit
  if whole.isEmpty then none
  else match cs.dropWhile isDecimalDigit with
    | [] => some (whole, [])
    | '.' :: fraction =>
      if !fraction.isEmpty && fraction.all isDecimalDigit && fraction.length ≤ places then
        some (whole, fraction)
      else none
    | _ => none

/-- A fraction has more bytes than there are places, and counting those it lacks stops the
    program. -/
def overrun : Fault :=
  .crash (.quoted "attempt to subtract with overflow")

/-- A zero in the place of each byte that the fraction lacks. -/
def padding (fraction : List Char) : Except Fault (List Char) :=
  if byteLength fraction ≤ places then
    .ok (List.replicate (places - byteLength fraction) '0')
  else .error overrun

/-- The digits of a count of units: both parts, and zeros behind them. Zeros in front are left
    out. -/
def unitDigits (whole fraction : List Char) : Except Fault (List Char) := do
  let zeros ← padding fraction
  pure ((whole ++ fraction ++ zeros).dropWhile (· == '0'))

/-- The amount of so many units; the digits are read into a word of 256 bits. -/
def ofDigits? (ds : List Char) : Option Amount :=
  if ds.isEmpty then some zero else (valueBelow? (twoTo 256) 0 ds).bind ofAtto?

/-- The amount that a text without blank ends stands for; `invalid` where it stands for none. -/
def ofChars (invalid : Fault) (cs : List Char) : Except Fault Amount :=
  match parts? cs with
  | some (whole, fraction) => do
    match ofDigits? (← unitDigits whole fraction) with
    | some a => .ok a
    | none => .error invalid
  | none => .error invalid

/-- Reads an amount, ignoring blank ends. The fault quotes the text as given. -/
def parse (input : String) : Except Fault Amount :=
  ofChars (.invalidAmount input) (trimChars input.toList)

/-- Reads an amount for a reader that tells in its own words what is none. -/
def parseOr (told : Fault) (input : String) : Except Fault Amount :=
  (parse input).mapError (Fault.retoldAs told)

end Amount

end LedgerClient
