/-
  Numerals: natural numbers and integers written with ASCII digits.

  * `digits n` are the decimal digits of `n`, without superfluous zeros;
  * `valueOf cs` is the number that a list of digits stands for, and
    `valueBelow?` the same within a limit;
  * `natural? cs` reads one or more digits and nothing else;
  * `bounded? limit s` reads a numeral below `limit` with an optional plus sign;
  * `hexDigits n` are the lower-case hexadecimal digits of `n`.
-/
import LedgerClient.Text.Digit

namespace LedgerClient.Text

/-! ## Writing -/

/-- The decimal digits of a natural number, the most significant first. -/
def digits (n : Nat) : List Char :=
  if n < 10 then [digitChar n] else digits (n / 10) ++ [digitChar (n % 10)]
termination_by n
decreasing_by omega

/-- The decimal numeral of a natural number. -/
def numeral (n : Nat) : String :=
  String.ofList (digits n)

/-- The decimal numeral of an integer, with a minus sign where it is negative. -/
def integerNumeral (i : Int) : String :=
  if i < 0 then "-" ++ numeral i.natAbs else numeral i.natAbs

/-- The hexadecimal digit of a value below sixteen, in lower case. -/
def hexChar (n : Nat) : Char :=
  if n < 10 then digitChar n else Char.ofNat (87 + n)

/-- The hexadecimal digits of a natural number, the most significant first. -/
def hexDigits (n : Nat) : List Char :=
  if n < 16 then [hexChar n] else hexDigits (n / 16) ++ [hexChar (n % 16)]
termination_by n
decreasing_by omega

/-- The number of bytes of a text in UTF-8. -/
def byteLength : List Char → Nat
  | [] => 0
  | c :: cs => c.utf8Size + byteLength cs

/-- The digits padded with zeros on the left up to the given width. -/
def padLeft (width : Nat) (cs : List Char) : List Char :=
  List.replicate (width - cs.length) '0' ++ cs

/-! ## Reading -/

/-- The number a list of digits stands for, read from the left onto `acc`. -/
def valueFrom (acc : Nat) (cs : List Char) : Nat :=
  cs.foldl (fun n c => n * 10 + digitValue c) acc

/-- The number a list of digits stands for. -/
def valueOf (cs : List Char) : Nat :=
  valueFrom 0 cs

/-- The number that ASCII digits stand for, read from the left onto `acc` as long as it
    stays below the limit. -/
def valueBelow? (limit acc : Nat) : List Char → Option Nat
  | [] => some acc
  | c :: cs =>
    if isDigit c && acc * 10 + digitValue c < limit then
      valueBelow? limit (acc * 10 + digitValue c) cs
    else none

/-- One or more ASCII digits and nothing else, as a number. -/
def natural? (cs : List Char) : Option Nat :=
  if !cs.isEmpty && cs.all isDigit then some (valueOf cs) else none

/-- The text without one leading plus sign. -/
def dropPlus : List Char → List Char
  | '+' :: cs => cs
  | cs => cs

/-- A numeral below `limit`: an optional plus sign, then ASCII digits. -/
def bounded? (limit : Nat) (s : String) : Option Nat :=
  (natural? (dropPlus s.toList)).filter (· < limit)

/-- The value of a hexadecimal digit of either case. -/
def hexValue? (c : Char) : Option Nat :=
  if isDigit c then some (digitValue c)
  else if 97 ≤ c.toNat && c.toNat ≤ 102 then some (c.toNat - 87)
  else if 65 ≤ c.toNat && c.toNat ≤ 70 then some (c.toNat - 55)
  else none

end LedgerClient.Text
