/-
  Numerals: their characters, their values, and which numeral stands for a
  number.

  * `IsNumeral cs` says that `cs` are digits, one or more, and
    `IsShortNumeral cs` that it has no superfluous zero in front;
  * `valueOf_append`: the value by place, digits behind others weighing less;
  * `valueBelow?_eq_some_iff`: reading within a limit gives the value, where
    it is below the limit;
  * `bounded?_eq_some_iff`: what is read within a limit are the numerals below it;
  * `digits_valueOf`, `valueOf_digits`: the digits of a number are its only
    numeral without superfluous zeros;
  * `eq_of_valueOf_eq`: numerals of one length are told apart by their values;
  * `valueOf_padLeft`, `length_padLeft`: padding leaves the value and makes up the length;
    `exists_split_padLeft`: padded digits are a whole part and its places.
-/
import LedgerClient.Power
import LedgerClient.Text.Numeral
import Mathlib.Data.List.Basic
import Mathlib.Data.List.Induction
import Mathlib.Tactic.Ring

namespace LedgerClient.Text

theorem isDigit_digitChar {n : Nat} (h : n < 10) : isDigit (digitChar n) := by
  have : ∀ n < 10, isDigit (digitChar n) := by decide
  exact this n h

/-- A decimal numeral consists of digits. -/
theorem isDigit_of_mem_digits (n : Nat) : ∀ c ∈ digits n, isDigit c := by
  fun_induction digits n with
  | case1 n h => simpa using isDigit_digitChar h
  | case2 n h ih =>
    intro c hc
    rcases List.mem_append.1 hc with hc | hc
    · exact ih c hc
    · rw [List.mem_singleton.1 hc]
      exact isDigit_digitChar (Nat.mod_lt n (by decide))

/-- A hexadecimal numeral consists of hexadecimal digits. -/
theorem exists_of_mem_hexDigits (n : Nat) : ∀ c ∈ hexDigits n, ∃ d < 16, c = hexChar d := by
  fun_induction hexDigits n with
  | case1 n h => simpa using ⟨n, h, rfl⟩
  | case2 n h ih =>
    intro c hc
    rcases List.mem_append.1 hc with hc | hc
    · exact ih c hc
    · exact ⟨n % 16, Nat.mod_lt n (by decide), List.mem_singleton.1 hc⟩

/-! ## Digits -/

theorem digitValue_digitChar {n : Nat} (h : n < 10) : digitValue (digitChar n) = n := by
  have : ∀ n < 10, digitValue (digitChar n) = n := by decide
  exact this n h

theorem isDigit_iff {c : Char} : isDigit c ↔ 48 ≤ c.toNat ∧ c.toNat ≤ 57 := by
  simp [isDigit]

theorem digitChar_digitValue {c : Char} (h : isDigit c) : digitChar (digitValue c) = c := by
  have hc := isDigit_iff.1 h
  rw [digitChar, digitValue, Nat.add_sub_cancel' hc.1, Char.ofNat_toNat]

theorem digitValue_lt {c : Char} (h : isDigit c) : digitValue c < 10 := by
  have hc := isDigit_iff.1 h
  rw [digitValue]
  omega

theorem forall_mem_zeros (k : Nat) : ∀ c ∈ List.replicate k '0', isDigit c := by
  intro c hc
  rw [List.eq_of_mem_replicate hc]
  decide

/-- An ASCII digit is a decimal digit. -/
theorem isDecimalDigit_of_isDigit {c : Char} (h : isDigit c) : isDecimalDigit c := by
  have hc := isDigit_iff.1 h
  simp only [isDecimalDigit, inRanges, digitRanges, List.any_cons, Bool.or_eq_true]
  exact Or.inl (by simpa using hc)

theorem utf8Size_of_isDigit {c : Char} (h : isDigit c) : c.utf8Size = 1 := by
  have hval : c.val ≤ UInt32.ofNatLT 127 (by decide) :=
    UInt32.le_iff_toNat_le.2 (Nat.le_trans (isDigit_iff.1 h).2 (by decide))
  rw [Char.utf8Size, if_pos hval]

/-- Digits take a byte each. -/
theorem byteLength_of_isDigit : ∀ {cs : List Char}, (∀ c ∈ cs, isDigit c) →
    byteLength cs = cs.length
  | [], _ => rfl
  | c :: cs, h => by
    rw [List.forall_mem_cons] at h
    rw [byteLength, utf8Size_of_isDigit h.1, byteLength_of_isDigit h.2, List.length_cons,
      Nat.add_comm]

/-! ## Values -/

theorem valueFrom_append (acc : Nat) (xs ys : List Char) :
    valueFrom acc (xs ++ ys) = valueFrom (valueFrom acc xs) ys :=
  List.foldl_append

/-- What was read before counts as many places more as digits follow. -/
theorem valueFrom_eq (acc : Nat) (cs : List Char) :
    valueFrom acc cs = acc * tenTo cs.length + valueOf cs := by
  induction cs generalizing acc with
  | nil => simp [valueFrom, valueOf]
  | cons c cs ih =>
    have hacc : valueFrom acc (c :: cs) = valueFrom (acc * 10 + digitValue c) cs := rfl
    have hzero : valueOf (c :: cs) = valueFrom (0 * 10 + digitValue c) cs := rfl
    rw [hacc, hzero, ih, ih (0 * 10 + digitValue c), List.length_cons, tenTo_succ]
    ring

theorem valueOf_cons (c : Char) (cs : List Char) :
    valueOf (c :: cs) = digitValue c * tenTo cs.length + valueOf cs := by
  have hstep : valueOf (c :: cs) = valueFrom (0 * 10 + digitValue c) cs := rfl
  rw [hstep, valueFrom_eq, Nat.zero_mul, Nat.zero_add]

theorem valueOf_append (xs ys : List Char) :
    valueOf (xs ++ ys) = valueOf xs * tenTo ys.length + valueOf ys := by
  have h := valueFrom_append 0 xs ys
  rwa [valueFrom_eq (valueFrom 0 xs)] at h

theorem valueOf_singleton (c : Char) : valueOf [c] = digitValue c := by
  simp [valueOf, valueFrom]

theorem valueOf_concat (cs : List Char) (c : Char) :
    valueOf (cs ++ [c]) = valueOf cs * 10 + digitValue c := by
  rw [valueOf_append, valueOf_singleton]
  rfl

theorem valueOf_replicate_zero (k : Nat) : valueOf (List.replicate k '0') = 0 := by
  induction k with
  | zero => rfl
  | succ k ih =>
    rw [List.replicate_succ', valueOf_concat, ih]
    rfl

/-- Zeros in front count nothing. -/
theorem valueOf_dropWhile_zero (cs : List Char) :
    valueOf (cs.dropWhile (· == '0')) = valueOf cs := by
  induction cs with
  | nil => rfl
  | cons c cs ih =>
    by_cases hc : c = '0'
    · subst hc
      have hstep : valueOf ('0' :: cs) = valueOf cs := rfl
      rw [List.dropWhile_cons_of_pos (by decide), ih, hstep]
    · rw [List.dropWhile_cons_of_neg (by simpa using hc)]

theorem valueOf_lt {cs : List Char} (h : ∀ c ∈ cs, isDigit c) : valueOf cs < tenTo cs.length := by
  induction cs with
  | nil => decide
  | cons c cs ih =>
    rw [List.forall_mem_cons] at h
    have hc : digitValue c + 1 ≤ 10 := digitValue_lt h.1
    calc valueOf (c :: cs) = digitValue c * tenTo cs.length + valueOf cs := valueOf_cons c cs
      _ < digitValue c * tenTo cs.length + tenTo cs.length := Nat.add_lt_add_left (ih h.2) _
      _ = (digitValue c + 1) * tenTo cs.length := (Nat.succ_mul _ _).symm
      _ ≤ 10 * tenTo cs.length := Nat.mul_le_mul_right _ hc
      _ = tenTo (c :: cs).length := by rw [List.length_cons, tenTo_succ, Nat.mul_comm]

/-- Reading within a limit gives the value, where there are only digits and it is below the
    limit. What is read on the way is no more than the whole. -/
theorem valueBelow?_eq_some_iff {limit acc n : Nat} {cs : List Char} (hacc : acc < limit) :
    valueBelow? limit acc cs = some n ↔
      (∀ c ∈ cs, isDigit c) ∧ valueFrom acc cs = n ∧ n < limit := by
  induction cs generalizing acc with
  | nil =>
    simp only [valueBelow?, Option.some.injEq, List.not_mem_nil, false_implies, implies_true,
      true_and]
    exact ⟨fun h => ⟨h, h ▸ hacc⟩, fun h => h.1⟩
  | cons c cs ih =>
    have hstep : valueFrom acc (c :: cs) = valueFrom (acc * 10 + digitValue c) cs := rfl
    rw [valueBelow?, List.forall_mem_cons, hstep]
    by_cases hc : isDigit c && acc * 10 + digitValue c < limit
    · rw [if_pos hc]
      simp only [Bool.and_eq_true, decide_eq_true_eq] at hc
      rw [ih hc.2]
      simp only [hc.1, true_and]
    · rw [if_neg hc]
      refine ⟨fun h => by simp at h, ?_⟩
      rintro ⟨⟨hdigit, -⟩, hvalue, hn⟩
      have hle : acc * 10 + digitValue c ≤ n := by
        rw [← hvalue, valueFrom_eq]
        exact Nat.le_add_right_of_le (Nat.le_mul_of_pos_right _ (tenTo_pos _))
      simp only [hdigit, Bool.true_and, decide_eq_true_eq] at hc
      omega

/-! ## Numerals -/

/-- One or more digits. -/
def IsNumeral (cs : List Char) : Prop :=
  cs ≠ [] ∧ ∀ c ∈ cs, isDigit c

/-- One or more digits, the first of which is a zero only where it is the only one. -/
def IsShortNumeral (cs : List Char) : Prop :=
  IsNumeral cs ∧ (cs.head? = some '0' → cs = ['0'])

instance (cs : List Char) : Decidable (IsNumeral cs) :=
  decidable_of_iff (cs ≠ [] ∧ cs.all isDigit) (by simp [IsNumeral])

instance (cs : List Char) : Decidable (IsShortNumeral cs) :=
  inferInstanceAs (Decidable (IsNumeral cs ∧ _))

theorem IsNumeral.point_not_mem {cs : List Char} (h : IsNumeral cs) : '.' ∉ cs := fun hmem =>
  absurd (h.2 '.' hmem) (by decide)

theorem natural?_eq_some_iff {cs : List Char} {n : Nat} :
    natural? cs = some n ↔ IsNumeral cs ∧ valueOf cs = n := by
  have hread : (!cs.isEmpty && cs.all isDigit) ↔ IsNumeral cs := by
    simp [IsNumeral]
  rw [natural?]
  split
  · rename_i h
    rw [Option.some.injEq, and_iff_right (hread.1 h)]
  · rename_i h
    exact ⟨nofun, fun hn => absurd (hread.2 hn.1) h⟩

/-- A numeral starts with no sign. -/
theorem dropPlus_eq_self {cs : List Char} (h : IsNumeral cs) : dropPlus cs = cs := by
  obtain ⟨hne, hdigit⟩ := h
  cases cs with
  | nil => exact absurd rfl hne
  | cons c cs =>
    have hplus : c ≠ '+' := by
      rintro rfl
      exact absurd (hdigit '+' List.mem_cons_self) (by decide)
    rw [dropPlus]
    rintro cs' ⟨⟩
    exact hplus rfl

theorem eq_or_of_dropPlus (cs : List Char) : cs = dropPlus cs ∨ cs = '+' :: dropPlus cs := by
  unfold dropPlus
  split
  · exact Or.inr rfl
  · exact Or.inl rfl

/-- **What is read within a limit** are the numerals below it, with a plus sign or without. -/
theorem bounded?_eq_some_iff {limit n : Nat} {s : String} :
    bounded? limit s = some n ↔
      ∃ cs, (s.toList = cs ∨ s.toList = '+' :: cs) ∧ IsNumeral cs ∧ valueOf cs = n ∧
        n < limit := by
  rw [bounded?, Option.filter_eq_some_iff, natural?_eq_some_iff, decide_eq_true_eq]
  constructor
  · rintro ⟨⟨hnumeral, hvalue⟩, hlt⟩
    exact ⟨_, eq_or_of_dropPlus s.toList, hnumeral, hvalue, hlt⟩
  · rintro ⟨cs, hcs, hnumeral, hvalue, hlt⟩
    have hdrop : dropPlus s.toList = cs := by
      rcases hcs with hcs | hcs
      · rw [hcs, dropPlus_eq_self hnumeral]
      · rw [hcs]
        rfl
    rw [hdrop]
    exact ⟨⟨hnumeral, hvalue⟩, hlt⟩

theorem digits_of_lt {n : Nat} (h : n < 10) : digits n = [digitChar n] := by
  rw [digits, if_pos h]

theorem digits_ne_nil (n : Nat) : digits n ≠ [] := by
  unfold digits
  split <;> simp

theorem isNumeral_digits (n : Nat) : IsNumeral (digits n) :=
  ⟨digits_ne_nil n, isDigit_of_mem_digits n⟩

/-- The digits of a number stand for it. -/
theorem valueOf_digits (n : Nat) : valueOf (digits n) = n := by
  fun_induction digits n with
  | case1 n h => rw [valueOf_singleton, digitValue_digitChar h]
  | case2 n h ih =>
    rw [valueOf_concat, ih, digitValue_digitChar (Nat.mod_lt n (by decide)), Nat.div_add_mod']

/-- The digits of a numeral's value are the numeral, where no zero in front is superfluous. -/
theorem digits_valueOf {cs : List Char} (h : IsShortNumeral cs) : digits (valueOf cs) = cs := by
  obtain ⟨⟨hne, hdigit⟩, hzero⟩ := h
  induction cs using List.reverseRecOn with
  | nil => exact absurd rfl hne
  | append_singleton cs c ih =>
    rw [List.forall_mem_append] at hdigit
    have hc := hdigit.2 c (List.mem_singleton_self c)
    have hlt := digitValue_lt hc
    by_cases hcs : cs = []
    · rw [hcs, List.nil_append, valueOf_singleton, digits_of_lt hlt, digitChar_digitValue hc]
    · have hhead : cs.head? ≠ some '0' := by
        intro h0
        have := congrArg List.length (hzero (by rw [List.head?_append_of_ne_nil _ hcs, h0]))
        simp [hcs] at this
      have hdigits := ih (fun h0 => absurd h0 hhead) hcs hdigit.1
      -- The value of the digits before the last is not zero, or they would be a zero.
      have hpos : valueOf cs ≠ 0 := by
        intro h0
        rw [h0, digits_of_lt (by decide)] at hdigits
        exact hhead (by rw [← hdigits]; decide)
      have hdiv : (valueOf cs * 10 + digitValue c) / 10 = valueOf cs := by omega
      have hmod : (valueOf cs * 10 + digitValue c) % 10 = digitValue c := by omega
      rw [valueOf_concat, digits, if_neg (by omega), hdiv, hmod, hdigits, digitChar_digitValue hc]

theorem isShortNumeral_digits (n : Nat) : IsShortNumeral (digits n) := by
  refine ⟨isNumeral_digits n, ?_⟩
  fun_induction digits n with
  | case1 n h => simp
  | case2 n h ih =>
    intro h0
    rw [List.head?_append_of_ne_nil _ (digits_ne_nil _)] at h0
    have hzero := congrArg valueOf (ih h0)
    rw [valueOf_digits] at hzero
    have : valueOf ['0'] = 0 := rfl
    omega

/-- A number below a power of ten has so many digits at most. -/
theorem length_digits_le {k n : Nat} (h : n < tenTo (k + 1)) : (digits n).length ≤ k + 1 := by
  induction k generalizing n with
  | zero =>
    rw [digits_of_lt h]
    exact Nat.le_refl 1
  | succ k ih =>
    rw [digits]
    split
    · exact Nat.le_add_left 1 _
    · rw [List.length_append]
      rw [tenTo_succ] at h
      exact Nat.succ_le_succ (ih (Nat.div_lt_of_lt_mul (by omega)))

/-- Digits of one length are told apart by their values. -/
theorem eq_of_valueOf_eq : ∀ {xs ys : List Char}, (∀ c ∈ xs, isDigit c) → (∀ c ∈ ys, isDigit c) →
    xs.length = ys.length → valueOf xs = valueOf ys → xs = ys
  | [], ys, _, _, hlength, _ => (List.eq_nil_of_length_eq_zero hlength.symm).symm
  | x :: xs, y :: ys, hx, hy, hlength, hvalue => by
    rw [List.forall_mem_cons] at hx hy
    rw [List.length_cons, List.length_cons, Nat.succ_inj] at hlength
    rw [valueOf_cons, valueOf_cons, hlength] at hvalue
    have hxs := valueOf_lt hx.2
    have hys := valueOf_lt hy.2
    rw [hlength] at hxs
    -- The first digit is the quotient by the weight of its place, the others are the rest.
    have hfirst : digitValue x = digitValue y := by
      have := congrArg (· / tenTo ys.length) hvalue
      simpa [Nat.mul_add_div, tenTo_pos, Nat.div_eq_of_lt, hxs, hys, Nat.mul_comm] using this
    have hrest : valueOf xs = valueOf ys := by
      rw [hfirst] at hvalue
      exact Nat.add_left_cancel hvalue
    rw [← digitChar_digitValue hx.1, hfirst, digitChar_digitValue hy.1,
      eq_of_valueOf_eq hx.2 hy.2 hlength hrest]

/-! ## Padding -/

theorem isNumeral_padLeft (width : Nat) {cs : List Char} (h : IsNumeral cs) :
    IsNumeral (padLeft width cs) :=
  ⟨fun hnil => h.1 (List.append_eq_nil_iff.1 hnil).2,
    List.forall_mem_append.2 ⟨forall_mem_zeros _, h.2⟩⟩

theorem valueOf_padLeft (width : Nat) (cs : List Char) :
    valueOf (padLeft width cs) = valueOf cs := by
  rw [padLeft, valueOf_append, valueOf_replicate_zero, Nat.zero_mul, Nat.zero_add]

theorem length_padLeft {width : Nat} {cs : List Char} (h : cs.length ≤ width) :
    (padLeft width cs).length = width := by
  rw [padLeft, List.length_append, List.length_replicate, Nat.sub_add_cancel h]

/-- Padded digits are a whole part and so many places, which come to the number. -/
theorem exists_split_padLeft (k n : Nat) : ∃ w f, padLeft (k + 1) (digits n) = w ++ f ∧
    IsShortNumeral w ∧ (∀ c ∈ f, isDigit c) ∧ f.length = k ∧
      valueOf w * tenTo k + valueOf f = n := by
  have hparts : ∃ w f, padLeft (k + 1) (digits n) = w ++ f ∧ IsShortNumeral w ∧
      (∀ c ∈ f, isDigit c) ∧ f.length = k := by
    obtain ⟨⟨hne, hdigit⟩, hzero⟩ := isShortNumeral_digits n
    rcases Nat.lt_or_ge k (digits n).length with hlt | hle
    · -- Nothing is padded, and the first digit is no zero.
      have hpos : 0 < (digits n).length - k := Nat.sub_pos_of_lt hlt
      refine ⟨(digits n).take ((digits n).length - k), (digits n).drop ((digits n).length - k), ?_,
        ⟨⟨?_, ?_⟩, fun h0 => ?_⟩, ?_, ?_⟩
      · rw [List.take_append_drop, padLeft, Nat.sub_eq_zero_of_le hlt, List.replicate_zero,
          List.nil_append]
      · rw [ne_eq, List.take_eq_nil_iff, not_or]
        exact ⟨hpos.ne', hne⟩
      · exact fun c hc => hdigit c (List.mem_of_mem_take hc)
      · rw [List.head?_take, if_neg hpos.ne'] at h0
        rw [hzero h0] at hlt hpos ⊢
        obtain rfl : k = 0 := by simpa using hlt
        rfl
      · exact fun c hc => hdigit c (List.mem_of_mem_drop hc)
      · rw [List.length_drop, Nat.sub_sub_self hlt.le]
    · -- The whole part is the first zero.
      refine ⟨['0'], List.replicate (k - (digits n).length) '0' ++ digits n, ?_,
        ⟨⟨by decide, List.forall_mem_singleton.2 rfl⟩, fun _ => rfl⟩, ?_, ?_⟩
      · rw [padLeft, Nat.succ_sub hle, List.replicate_succ, List.cons_append,
          List.singleton_append]
      · exact List.forall_mem_append.2 ⟨forall_mem_zeros _, hdigit⟩
      · rw [List.length_append, List.length_replicate, Nat.sub_add_cancel hle]
  obtain ⟨w, f, hpad, hw, hf, hlength⟩ := hparts
  refine ⟨w, f, hpad, hw, hf, hlength, ?_⟩
  calc valueOf w * tenTo k + valueOf f = valueOf (w ++ f) := by rw [valueOf_append, hlength]
    _ = valueOf (padLeft (k + 1) (digits n)) := by rw [hpad]
    _ = n := by rw [valueOf_padLeft, valueOf_digits]

end LedgerClient.Text
