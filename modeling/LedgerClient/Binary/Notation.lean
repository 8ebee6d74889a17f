/-
  Notations of binary64 values: how the shortest digits are laid out.

  * `plain` writes every value positionally and no point after whole numbers;
  * `pointed` writes a point always, and an exponent below 10⁻⁵ and from 10¹⁶ on.
-/
import LedgerClient.Binary.Shortest
import LedgerClient.Text.Numeral

namespace LedgerClient.Binary

open Text

/-- The digits and the number of them before the decimal point. -/
def layout (d : ShortDecimal) : List Char × Int :=
  let ds := digits d.digits
  (ds, ds.length + d.exponent)

/-- Positional notation with `before` digits before the point. -/
def positional (ds : List Char) (before : Int) : List Char × List Char :=
  if before ≤ 0 then (['0'], List.replicate (-before).toNat '0' ++ ds)
  else if ds.length ≤ before.toNat then
    (ds ++ List.replicate (before.toNat - ds.length) '0', [])
  else (ds.take before.toNat, ds.drop before.toNat)

/-- The sign of a value in front of its text. -/
def withSign (negative : Bool) (cs : List Char) : String :=
  String.ofList (if negative then '-' :: cs else cs)

/-- Positional notation for all values; whole numbers have no point. -/
def plain (x : Float) : String :=
  if x.isNaN then "NaN"
  else if x.isInf then withSign (signBit x.toBits) "inf".toList
  else
    let (ds, before) := layout ((ofBits x.toBits).shortest .up)
    let (whole, fraction) := positional ds before
    withSign (signBit x.toBits) (if fraction.isEmpty then whole else whole ++ '.' :: fraction)

/-- Positional notation with a point from 10⁻⁵ to below 10¹⁶, and otherwise one
    digit before the point (which is left out after a single digit) and an
    exponent. -/
def pointed (x : Float) : String :=
  let d := (ofBits x.toBits).shortest .toEven
  let (ds, before) := layout d
  withSign (signBit x.toBits) <|
    if d.digits = 0 then ['0', '.', '0']
    else if -5 < before ∧ before ≤ 16 then
      let (whole, fraction) := positional ds before
      whole ++ '.' :: (if fraction.isEmpty then ['0'] else fraction)
    else
      let mantissa := match ds with
        | [d] => [d]
        | d :: rest => d :: '.' :: rest
        | [] => []
      mantissa ++ 'e' :: (integerNumeral (before - 1)).toList

end LedgerClient.Binary
