/-
  Sums of amounts, each added with a check.

  * `checkedAdd_eq_inWords`: the sum of two amounts is the sum of two words of 256 bits. That one
    never wraps around, so that the range alone decides;
  * `total amounts` adds up a list from zero, and `foldlM_checkedAdd`: to check at each amount
    comes to the same as to check the exact sum once;
  * `addVaults_eq_foldlM`: the vaults of a resource are added up in this way;
  * `total_exact`: so a total is the exact sum, there is one just where that sum is in range, and
    the order makes no difference.
-/
import LedgerClient.Balances
import LedgerClient.Proofs.Amount.Notation
import Mathlib.Algebra.BigOperators.Group.List.Basic

namespace LedgerClient

namespace Amount

/-! ## One sum -/

theorem ofAtto?_atto (a : Amount) : ofAtto? a.atto = some a :=
  ofAtto?_eq_some_iff.2 rfl

theorem ofAtto?_eq_none_iff {n : Nat} : ofAtto? n = none ↔ twoTo 191 ≤ n := by
  rw [ofAtto?, ← Nat.not_lt]
  split
  · rename_i hn
    exact iff_of_false (Option.some_ne_none _) fun h => h hn
  · rename_i hn
    exact iff_of_true rfl hn

theorem exists_ofAtto?_iff {n : Nat} : (∃ a, ofAtto? n = some a) ↔ n ≤ twoTo 191 - 1 := by
  rw [← Option.ne_none_iff_exists', ne_eq, ofAtto?_eq_none_iff, Nat.not_le,
    Nat.le_sub_one_iff_lt (twoTo_pos 191)]

theorem checkedAdd_eq_some {a b : Amount} (h : a.atto + b.atto < twoTo 191) :
    a.checkedAdd b = some ⟨a.atto + b.atto, h⟩ := by
  rw [checkedAdd, ofAtto?, dif_pos h]

theorem checkedAdd_eq_none {a b : Amount} (h : ¬a.atto + b.atto < twoTo 191) :
    a.checkedAdd b = none := by
  rw [checkedAdd, ofAtto?, dif_neg h]

/-! ## Words -/

/-- The units of an amount as a word of 256 bits. -/
def word (a : Amount) : BitVec 256 :=
  BitVec.ofNat 256 a.atto

/-- The sum of two words, where it does not wrap around. -/
def addWords? (x y : BitVec 256) : Option (BitVec 256) :=
  if x.uaddOverflow y then none else some (x + y)

theorem toNat_word (a : Amount) : a.word.toNat = a.atto := by
  rw [word, BitVec.toNat_ofNat]
  exact Nat.mod_eq_of_lt (Nat.lt_trans a.atto_lt (by decide))

/-- **A sum is tested twice, and the second test alone decides.** Two amounts leave the topmost
    bits of their words free. -/
theorem checkedAdd_eq_inWords (a b : Amount) :
    a.checkedAdd b = (addWords? a.word b.word).bind fun sum => ofAtto? sum.toNat := by
  have hsum : a.word.toNat + b.word.toNat < 2 ^ 256 := by
    rw [toNat_word, toNat_word]
    have hwide : twoTo 191 + twoTo 191 < 2 ^ 256 := by decide
    exact Nat.lt_trans (Nat.add_lt_add a.atto_lt b.atto_lt) hwide
  have hfree : a.word.uaddOverflow b.word = false := by
    rw [BitVec.uaddOverflow, decide_eq_false_iff_not, Nat.not_le]
    exact hsum
  rw [addWords?, hfree, if_neg Bool.false_ne_true, Option.bind_some,
    BitVec.toNat_add_of_lt hsum, toNat_word, toNat_word, checkedAdd]

/-! ## Many sums -/

/-- The amounts added up from zero, with a check at each one. -/
def total (amounts : List Amount) : Option Amount :=
  amounts.foldlM checkedAdd zero

/-- The units of all the amounts together. -/
def exactSum (amounts : List Amount) : Nat :=
  (amounts.map atto).sum

/-- To check at each amount comes to the same as to check the exact sum once: a sum that is out
    of range on the way is so at the end. -/
theorem foldlM_checkedAdd (start : Amount) (amounts : List Amount) :
    amounts.foldlM checkedAdd start = ofAtto? (start.atto + exactSum amounts) := by
  induction amounts generalizing start with
  | nil => exact (ofAtto?_atto start).symm
  | cons a amounts ih =>
    rw [List.foldlM_cons, exactSum, List.map_cons, List.sum_cons, ← Nat.add_assoc]
    by_cases hroom : start.atto + a.atto < twoTo 191
    · rw [checkedAdd_eq_some hroom]
      exact ih ⟨start.atto + a.atto, hroom⟩
    · rw [checkedAdd_eq_none hroom]
      exact (ofAtto?_eq_none_iff.2 (Nat.le_add_right_of_le (Nat.not_lt.1 hroom))).symm

theorem total_eq (amounts : List Amount) : total amounts = ofAtto? (exactSum amounts) := by
  rw [total, foldlM_checkedAdd]
  exact congrArg ofAtto? (Nat.zero_add _)

theorem total_append (amounts more : List Amount) :
    total (amounts ++ more) = (total amounts).bind fun sofar => more.foldlM checkedAdd sofar :=
  List.foldlM_append

end Amount

/-! ## Vaults -/

namespace Balances

/-- What is made of the sum over the vaults of a resource: it is reported where there is none. -/
def orOverflow (resource : String) : Option Amount → Except Fault Amount
  | some sum => .ok sum
  | none => .error (.schemaMismatch resource "Decimal" "overflow")

variable {page : List FungibleVault} {amounts : List Amount}

/-- The vaults of a resource are added up with a check at each one. -/
theorem addVaults_eq_foldlM (resource : String) (start : Amount) (vaults : VaultAmounts)
    (hread : List.Forall₂ (fun vault a => Amount.parse vault.amount = .ok a) page amounts) :
    (page.foldlM (addVault resource) (start, vaults)).map Prod.fst =
      orOverflow resource (amounts.foldlM Amount.checkedAdd start) := by
  induction hread generalizing start vaults with
  | nil => rfl
  | @cons vault a page amounts ha _ ih =>
    have hstep : addVault resource (start, vaults) vault =
        (orOverflow resource (start.checkedAdd a)).map (·, vaults.insert vault.address a) := by
      rw [addVault, gatewayAmount, Amount.parseOr_eq_ok_iff.2 ha]
      show (match start.checkedAdd a with | some _ => _ | none => _) = _
      cases start.checkedAdd a <;> rfl
    rw [List.foldlM_cons, List.foldlM_cons, hstep]
    cases start.checkedAdd a with
    | none => rfl
    | some sum => exact ih sum _

end Balances

namespace Amount

/-- **A total is the exact sum of its amounts.** There is one just where that sum is in range,
    what is out of range stays so whatever follows, and the amounts may come in any order. Both
    tests at each amount come to this, and so do the sums over the vaults of a resource. -/
theorem total_exact :
    (∀ amounts t, total amounts = some t ↔ t.atto = exactSum amounts) ∧
    (∀ amounts, (∃ t, total amounts = some t) ↔ exactSum amounts ≤ twoTo 191 - 1) ∧
    (∀ amounts more, total amounts = none → total (amounts ++ more) = none) ∧
    (∀ amounts amounts', amounts.Perm amounts' → total amounts' = total amounts) ∧
    (∀ amounts, total amounts = amounts.foldlM (fun sofar a =>
      (addWords? sofar.word a.word).bind fun sum => ofAtto? sum.toNat) zero) ∧
    ∀ (r : FungibleResource) (page : List FungibleVault) (amounts : List Amount)
      (vaults : VaultAmounts), r.vaults = some page →
      List.Forall₂ (fun vault a => parse vault.amount = .ok a) page amounts →
      (Balances.total vaults r).map Prod.fst = Balances.orOverflow r.address (total amounts) := by
  refine ⟨fun amounts t => ?_, fun amounts => ?_, fun amounts more hnone => ?_,
    fun amounts amounts' hperm => ?_, fun amounts => ?_,
    fun r page amounts vaults hpage hread => ?_⟩
  · rw [total_eq, ofAtto?_eq_some_iff]
  · rw [total_eq, exists_ofAtto?_iff]
  · rw [total_append, hnone, Option.bind_none]
  · rw [total_eq, total_eq, exactSum, exactSum, (hperm.map atto).sum_eq]
  · rw [total]
    congr 1
    funext sofar a
    exact checkedAdd_eq_inWords sofar a
  · rw [Balances.total, hpage]
    exact Balances.addVaults_eq_foldlM r.address zero vaults hread

/-- Also where the sum reaches the limit, and where it is one unit beyond it. -/
theorem total_exact_at_limit :
    let most : Amount := ⟨twoTo 191 - 2, by decide⟩
    let one : Amount := ⟨1, by decide⟩
    let page : List FungibleVault := [⟨"vault_x", "0.000000000000000001"⟩,
      ⟨"vault_y", "3138550867693340381917894711603833208051.177722232017256446"⟩,
      ⟨"vault_z", "0.000000000000000001"⟩]
    total [most, one, zero] = some ⟨twoTo 191 - 1, by decide⟩ ∧
      total [zero, one, most] = total [most, one, zero] ∧
      exactSum [one, most, one] = twoTo 191 ∧ total [one, most, one] = none ∧
      total ([one, most, one] ++ [zero]) = none ∧ total [one, one, most] = none ∧
      (Balances.total [] ⟨"xrd", none, some page⟩).map Prod.fst =
        .error (.schemaMismatch "xrd" "Decimal" "overflow") := by
  intro most one page
  obtain ⟨hexact, hexists, hstays, horder, -, hvaults⟩ := total_exact
  have hnone : total [one, most, one] = none := by
    refine Option.eq_none_iff_forall_ne_some.2 fun t ht => ?_
    exact absurd ((hexists _).1 ⟨t, ht⟩) (by decide)
  have hread : List.Forall₂ (fun (vault : FungibleVault) a => parse vault.amount = .ok a) page
      [one, most, one] :=
    .cons (by decide +kernel) (.cons (by decide +kernel) (.cons (by decide +kernel) .nil))
  refine ⟨(hexact _ _).2 (by decide), horder _ _ (by decide), by decide, hnone,
    hstays _ [zero] hnone, (horder [one, most, one] _ (by decide)).trans hnone, ?_⟩
  rw [hvaults _ page _ [] rfl hread, hnone]
  rfl

end Amount

end LedgerClient
