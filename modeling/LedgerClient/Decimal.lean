/-
  Scaled decimals: a sign, a mantissa of 96 bits and a scale of at most 28
  places, which is kept as written (`1.50` has scale 2).

  * `Decimal.ofText?` reads plain notation, and else notation with an exponent;
    fraction digits beyond the capacity are rounded away by the first of them;
  * `Decimal.text` writes exactly `scale` places;
  * `Decimal.normalize` drops the zeros at the end of the fraction;
  * `Amount.ofDecimal` is the amount of the same value, never rounded.
-/
import LedgerClient.Amount
import LedgerClient.Text.Search

namespace LedgerClient

open Text

/-- `±mantissa · 10⁻ˢᶜᵃˡᵉ`. A zero may have a sign too; one that is read has none. -/
structure Decimal where
  negative : Bool
  mantissa : Nat
  scale : Nat
  mantissa_lt : mantissa < twoTo 96
  scale_le : scale ≤ 28
deriving DecidableEq

namespace Decimal

/-- The greatest number of places. -/
def maxScale : Nat := 28

/-- One more than the greatest mantissa. -/
def mantissaEnd : Nat := twoTo 96

/-- The decimal with the given parts, where they are within capacity. A zero gets no sign. -/
def ofParts? (negative : Bool) (mantissa scale : Nat) : Option Decimal :=
  if h : mantissa < twoTo 96 ∧ scale ≤ 28 then
    some ⟨negative && mantissa != 0, mantissa, scale, h.1, h.2⟩
  else none

def isZero (d : Decimal) : Bool := d.mantissa == 0

/-! ## Text -/

/-- The absolute value of the text: `scale` digits stand after the point. -/
def absChars (mantissa scale : Nat) : List Char :=
  let ds := padLeft (scale + 1) (digits mantissa)
  if scale = 0 then ds else ds.take (ds.length - scale) ++ '.' :: ds.drop (ds.length - scale)

/-- The text with exactly `scale` places. -/
def text (d : Decimal) : String :=
  String.ofList ((if d.negative then ['-'] else []) ++ absChars d.mantissa d.scale)

/-! ## Normal form -/

/-- Mantissa and scale after dropping zeros at the end of the fraction. -/
def dropZeros (mantissa : Nat) : Nat → Nat × Nat
  | 0 => (mantissa, 0)
  | scale + 1 =>
    if mantissa % 10 = 0 then dropZeros (mantissa / 10) scale else (mantissa, scale + 1)

theorem dropZeros_le (mantissa scale : Nat) :
    (dropZeros mantissa scale).1 ≤ mantissa ∧ (dropZeros mantissa scale).2 ≤ scale := by
  induction scale generalizing mantissa with
  | zero => simp [dropZeros]
  | succ scale ih =>
    unfold dropZeros
    split
    · have := ih (mantissa / 10)
      omega
    · simp

/-- The same value without zeros at the end of the fraction, and without the sign of a zero. -/
def normalize (d : Decimal) : Decimal where
  negative := d.negative && !d.isZero
  mantissa := (dropZeros d.mantissa d.scale).1
  scale := (dropZeros d.mantissa d.scale).2
  mantissa_lt := Nat.lt_of_le_of_lt (dropZeros_le ..).1 d.mantissa_lt
  scale_le := Nat.le_trans (dropZeros_le ..).2 d.scale_le

/-- The same value without its sign. -/
def abs (d : Decimal) : Decimal :=
  { d with negative := false }

/-! ## Reading -/

/-- What the first character beyond the capacity does: a digit from five up
    rounds the mantissa, and what follows it is not looked at. -/
def roundBy (mantissa scale : Nat) (c : Char) : Option (Nat × Nat) :=
  if isDigit c && digitValue c ≥ 5 then
    if mantissa + 1 < mantissaEnd then some (mantissa + 1, scale)
    else if scale = 0 then none
    else some ((mantissa + 5) / 10, scale - 1)
  else if isDigit c || c == '_' || c == '.' then some (mantissa, scale)
  else none

/-- Reads mantissa and scale from unsigned plain notation. `point` says that
    the decimal point has been read, `seen` that a digit has. -/
def readPlain (point seen : Bool) (mantissa scale : Nat) : List Char → Option (Nat × Nat)
  | [] => if seen then some (mantissa, scale) else none
  | c :: cs =>
    if point && scale ≥ maxScale then roundBy mantissa scale c
    else if isDigit c then
      let next := mantissa * 10 + digitValue c
      if next < mantissaEnd then readPlain point true next (if point then scale + 1 else 0) cs
      else if point then roundBy mantissa scale c
      else none
    else if c = '.' && !point then readPlain true seen mantissa scale cs
    else if c = '_' && seen then readPlain point seen mantissa scale cs
    else none

/-- Reads plain notation with an optional sign. -/
def plain? (cs : List Char) : Option Decimal :=
  let (negative, body) := match cs with
    | '-' :: r => (true, r)
    | '+' :: r => (false, r)
    | r => (false, r)
  do
    let (mantissa, scale) ← readPlain false false 0 0 body
    ofParts? negative mantissa scale

/-- What stands before and after the first `e` or `E`. -/
def cutExponent? : List Char → Option (List Char × List Char)
  | [] => none
  | c :: cs =>
    if c = 'e' || c = 'E' then some ([], cs)
    else (cutExponent? cs).map fun (a, b) => (c :: a, b)

/-- The decimal times a positive power of ten. An exponent up to the scale
    lowers the scale; a larger one, of at most 28, gives an integer. -/
def scaleUp? (d : Decimal) (exponent : Nat) : Option Decimal :=
  if exponent ≤ d.scale then ofParts? d.negative d.mantissa (d.scale - exponent)
  else if exponent > maxScale then none
  else ofParts? d.negative (d.mantissa * tenTo (exponent - d.scale)) 0

/-- The decimal divided by a power of ten of at most 28, where the scale allows it. -/
def scaleDown? (d : Decimal) (exponent : Nat) : Option Decimal :=
  if exponent > maxScale then none else ofParts? d.negative d.mantissa (d.scale + exponent)

/-- Reads plain notation followed by a decimal exponent. -/
def scientific? (cs : List Char) : Option Decimal := do
  let (base, exponent) ← cutExponent? cs
  let d ← plain? base
  match exponent with
  | '-' :: e => (bounded? (twoTo 32) (String.ofList e)).bind d.scaleDown?
  | e => (bounded? (twoTo 32) (String.ofList e)).bind d.scaleUp?

/-- Reads plain notation, and where that fails, notation with an exponent. -/
def ofText? (s : String) : Option Decimal :=
  plain? s.toList <|> scientific? s.toList

end Decimal

/-! ## Amounts of decimals -/

/-- The amount of the same value. A negative value is quoted as written, one
    with too many places in normal form. -/
def Amount.ofDecimal (d : Decimal) : Except Fault Amount :=
  if d.negative && !d.isZero then .error (.invalidAmount d.text)
  else Amount.parse d.abs.normalize.text

end LedgerClient
