/-
  Shortest decimals: the decimal with the fewest digits among those that round
  to a given binary64 value, and of two such the closer one.

  * `Binary` is a finite value `m · 2^q`, decoded from its bits by `Binary.ofBits`;
  * `Binary.readsBack x d` holds for the decimals `d` between the halfway points
    to the neighbours of `x`, ends included where `m` is even;
  * `Binary.shortest x` tries one digit, two digits, … and takes the first hit.
-/
import LedgerClient.Power

namespace LedgerClient

/-- The finite non-negative value `m · 2^q`. -/
structure Binary where
  m : Nat
  q : Int
  /-- The gap to the neighbour below is half the gap to the one above. -/
  narrowBelow : Bool

/-- Which of two equally close decimals is taken. -/
inductive Tie where
  /-- the one with an even last digit -/
  | toEven
  /-- the larger one -/
  | up

/-- The decimal `digits · 10^exponent`. -/
structure ShortDecimal where
  digits : Nat
  exponent : Int
deriving DecidableEq, Repr

namespace Binary

/-- The value of the bits of a finite number, the sign aside. -/
def ofBits (bits : UInt64) : Binary :=
  let e := ((bits >>> 52) &&& 0x7FF).toNat
  let f := (bits &&& 0xFFFFFFFFFFFFF).toNat
  if e = 0 then ⟨f, -1074, false⟩ else ⟨twoTo 52 + f, (e : Int) - 1075, f == 0 && e > 1⟩

/-- Whether the sign bit is set. -/
def signBit (bits : UInt64) : Bool :=
  bits >>> 63 == 1

/-- Compares `a · 10^i` with `n · 2^j`. -/
def compareScaled (a : Nat) (i : Int) (n : Nat) (j : Int) : Ordering :=
  compare (a * tenTo i.toNat * twoTo (-j).toNat) (n * twoTo j.toNat * tenTo (-i).toNat)

/-- Whether the decimal lies among the reals that round to the value. -/
def readsBack (x : Binary) (d : ShortDecimal) : Bool :=
  let low := if x.narrowBelow then 4 * x.m - 1 else 4 * x.m - 2
  let atLow := compareScaled d.digits d.exponent low (x.q - 2)
  let atHigh := compareScaled d.digits d.exponent (4 * x.m + 2) (x.q - 2)
  let ends := x.m % 2 == 0
  (atLow == .gt || (ends && atLow == .eq)) && (atHigh == .lt || (ends && atHigh == .eq))

/-- The value divided by `10^g`, rounded down, and whether the decimal above is
    to be preferred to the one below. -/
def neighbours (x : Binary) (tie : Tie) (g : Int) : Nat × Bool :=
  let num := x.m * twoTo x.q.toNat * tenTo (-g).toNat
  let den := twoTo (-x.q).toNat * tenTo g.toNat
  let low := num / den
  let twice := 2 * (num % den)
  let upOnTie := match tie with
    | .toEven => low % 2 == 1
    | .up => true
  (low, twice > den || (twice == den && upOnTie))

/-- A decimal on the grid `10^g` that reads back: of two such the nearer one. -/
def onGrid? (x : Binary) (tie : Tie) (g : Int) : Option ShortDecimal :=
  let (low, preferAbove) := x.neighbours tie g
  let below : ShortDecimal := ⟨low, g⟩
  let above : ShortDecimal := ⟨low + 1, g⟩
  match x.readsBack below, x.readsBack above with
  | true, true => some (if preferAbove then above else below)
  | true, false => some below
  | false, true => some above
  | false, false => none

/-- An exponent `k` with the value below `10^k`, from the binary logarithm. -/
def roughScale (x : Binary) : Int :=
  (((x.m.log2 : Int) + 1 + x.q) * 30103).fdiv 100000 + 1

/-- The least `k` near the rough one with the value below `10^k`. -/
def scale (x : Binary) : Int :=
  let k := x.roughScale
  if compareScaled 1 (k - 2) x.m x.q == .gt then k - 2
  else if compareScaled 1 (k - 1) x.m x.q == .gt then k - 1
  else k

/-- The decimal without zeros at the end of its digits. -/
def stripZeros : Nat → ShortDecimal → ShortDecimal
  | 0, d => d
  | fuel + 1, d =>
    if d.digits % 10 = 0 ∧ d.digits ≠ 0 then stripZeros fuel ⟨d.digits / 10, d.exponent + 1⟩ else d

/-- The exact decimal of the value. -/
def exact (x : Binary) : ShortDecimal :=
  if x.q < 0 then ⟨x.m * Nat.pow 5 (-x.q).toNat, x.q⟩ else ⟨x.m * twoTo x.q.toNat, 0⟩

/-- The shortest decimal that reads back to the value. -/
def shortest (x : Binary) (tie : Tie) : ShortDecimal :=
  if x.m = 0 then ⟨0, 0⟩
  else
    let k := x.scale
    let hit := (List.range 17).findSome? fun (n : Nat) => x.onGrid? tie (k - 1 - n)
    stripZeros 400 (hit.getD x.exact)

end Binary

end LedgerClient
