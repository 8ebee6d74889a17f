/-
  Powers of two and of ten: the ends of words, and the weights of decimal
  places.

  * `twoTo n` is 2ⁿ, one more than the greatest word of `n` bits;
  * `tenTo n` is 10ⁿ, the weight of the digit with `n` digits behind it.
-/

namespace LedgerClient

/-- The power 2ⁿ. -/
def twoTo (n : Nat) : Nat :=
  Nat.pow 2 n

/-- The power 10ⁿ. -/
def tenTo (n : Nat) : Nat :=
  Nat.pow 10 n

@[simp] theorem twoTo_zero : twoTo 0 = 1 := rfl

theorem twoTo_succ (n : Nat) : twoTo (n + 1) = twoTo n * 2 := rfl

@[simp] theorem tenTo_zero : tenTo 0 = 1 := rfl

theorem tenTo_succ (n : Nat) : tenTo (n + 1) = tenTo n * 10 := rfl

theorem tenTo_add (m n : Nat) : tenTo (m + n) = tenTo m * tenTo n :=
  Nat.pow_add 10 m n

theorem twoTo_pos (n : Nat) : 0 < twoTo n :=
  Nat.pow_pos (by decide)

theorem tenTo_pos (n : Nat) : 0 < tenTo n :=
  Nat.pow_pos (by decide)

end LedgerClient
