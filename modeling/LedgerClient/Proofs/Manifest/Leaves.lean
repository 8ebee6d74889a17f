/-
  Leaves: the values at the ends of a value, at any depth.

  * `Value.leaves v` are the values in `v` that hold no further values, from
    left to right; `Value.leavesOf vs` those of the values of a list, and
    `Value.addressesOf vs` the addresses among them;
  * the buckets and proofs a value hands over are the ones among its leaves
    (`bucketsOf_eq`, `proofsOf_eq`), and it hands over the entire worktop where
    that expression is a leaf (`anyTakesEntireWorktop_iff`).
-/
import LedgerClient.Manifest.Instruction

namespace LedgerClient.Manifest

namespace Value

mutual

/-- The values at any depth that hold no further values, from left to right. -/
def leaves : Value → List Value
  | enumeration _ vs | array _ vs | tuple vs => leavesOf vs
  | v => [v]

/-- The leaves of the values of a list. -/
def leavesOf : List Value → List Value
  | [] => []
  | v :: vs => v.leaves ++ leavesOf vs

end

/-- The bucket a value names. -/
def bucket? : Value → Option String
  | bucket name => some name
  | _ => none

/-- The proof a value names. -/
def proof? : Value → Option String
  | proof name => some name
  | _ => none

/-- The address a value names. -/
def address? : Value → Option String
  | address a => some a
  | _ => none

/-- The addresses among values, at any depth. -/
def addressesOf (vs : List Value) : List String :=
  (leavesOf vs).filterMap address?

mutual

theorem buckets_eq : ∀ v : Value, v.buckets = v.leaves.filterMap bucket?
  | enumeration _ vs | array _ vs | tuple vs => by rw [buckets, leaves, bucketsOf_eq vs]
  | bucket _ => rfl
  | address _ | decimal _ | preciseDecimal _ | proof _ | expression _ | string _ | bool _
  | integer _ _ | localId _ => rfl

/-- The buckets handed over are those among the leaves. -/
theorem bucketsOf_eq : ∀ vs : List Value, bucketsOf vs = (leavesOf vs).filterMap bucket?
  | [] => rfl
  | v :: vs => by rw [bucketsOf, leavesOf, List.filterMap_append, buckets_eq v, bucketsOf_eq vs]

end

mutual

theorem proofs_eq : ∀ v : Value, v.proofs = v.leaves.filterMap proof?
  | enumeration _ vs | array _ vs | tuple vs => by rw [proofs, leaves, proofsOf_eq vs]
  | proof _ => rfl
  | address _ | decimal _ | preciseDecimal _ | bucket _ | expression _ | string _ | bool _
  | integer _ _ | localId _ => rfl

/-- The proofs handed over are those among the leaves. -/
theorem proofsOf_eq : ∀ vs : List Value, proofsOf vs = (leavesOf vs).filterMap proof?
  | [] => rfl
  | v :: vs => by rw [proofsOf, leavesOf, List.filterMap_append, proofs_eq v, proofsOf_eq vs]

end

mutual

theorem takesEntireWorktop_iff :
    ∀ v : Value, v.takesEntireWorktop ↔ expression .entireWorktop ∈ v.leaves
  | enumeration _ vs | array _ vs | tuple vs => by
    rw [takesEntireWorktop, leaves, anyTakesEntireWorktop_iff vs]
  | expression .entireWorktop => by simp [takesEntireWorktop, leaves]
  | expression .entireAuthZone | address _ | decimal _ | preciseDecimal _ | bucket _ | proof _
  | string _ | bool _ | integer _ _ | localId _ => by simp [takesEntireWorktop, leaves]

/-- The entire worktop is handed over where it is among the leaves. -/
theorem anyTakesEntireWorktop_iff :
    ∀ vs : List Value, anyTakesEntireWorktop vs ↔ expression .entireWorktop ∈ leavesOf vs
  | [] => by simp [anyTakesEntireWorktop, leavesOf]
  | v :: vs => by
    rw [anyTakesEntireWorktop, Bool.or_eq_true, leavesOf, List.mem_append,
      takesEntireWorktop_iff v, anyTakesEntireWorktop_iff vs]

end

end Value

end LedgerClient.Manifest
