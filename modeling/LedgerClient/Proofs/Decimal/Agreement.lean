/-
  Two readers of one text: as an amount, and as a decimal.

  * `readPlain_digits`: reading digits as a decimal adds their value to the mantissa, and behind
    the point their number to the scale, as long as both are within capacity;
  * `exists_plain?_of_denotes`: so what denotes a number of units is read exactly as a decimal
    that comes to it, if its digits fit the mantissa;
  * `amount_agrees_with_decimal`: a field of a state that both readers can hold is the same
    number to both.
-/
import LedgerClient.Proofs.Decimal.Conversion
import LedgerClient.Proofs.State.Answers

namespace LedgerClient

open Text

namespace Decimal

/-! ## Digits -/

/-- Digits within capacity are read one after another. In front of the point the scale stays
    zero; behind it each digit counts one place. -/
theorem readPlain_digits (point seen : Bool) {m s : Nat} {ds : List Char} (rest : List Char)
    (hdigit : ∀ c ∈ ds, isDigit c) (hfits : valueFrom m ds < mantissaEnd)
    (hwhole : point = false → s = 0) (hplaces : point → s + ds.length ≤ maxScale) :
    readPlain point seen m s (ds ++ rest) =
      readPlain point (seen || !ds.isEmpty) (valueFrom m ds)
        (if point then s + ds.length else 0) rest := by
  induction ds generalizing seen m s with
  | nil =>
    cases point with
    | false => simp [valueFrom, hwhole rfl]
    | true => simp [valueFrom]
  | cons c ds ih =>
    rw [List.forall_mem_cons] at hdigit
    have hstep : valueFrom m (c :: ds) = valueFrom (m * 10 + digitValue c) ds := rfl
    rw [hstep] at hfits ⊢
    have hnext : m * 10 + digitValue c < mantissaEnd := by
      refine Nat.lt_of_le_of_lt ?_ hfits
      rw [valueFrom_eq]
      exact Nat.le_add_right_of_le (Nat.le_mul_of_pos_right _ (tenTo_pos _))
    have hroom : ¬(point && decide (s ≥ maxScale)) = true := by
      intro h
      simp only [Bool.and_eq_true, decide_eq_true_eq] at h
      have := hplaces h.1
      rw [List.length_cons] at this
      omega
    rw [List.cons_append, readPlain, if_neg hroom, if_pos hdigit.1]
    simp only [hnext, if_true]
    rw [ih _ hdigit.2 hfits]
    · cases point <;> simp [Nat.add_assoc, Nat.add_comm 1]
    · rintro rfl
      rfl
    · rintro rfl
      have := hplaces rfl
      rw [List.length_cons] at this
      simp only [if_true]
      omega

theorem readPlain_point (m : Nat) (rest : List Char) :
    readPlain false true m 0 ('.' :: rest) = readPlain true true m 0 rest := by
  have hdigit : isDigit '.' = false := rfl
  simp [readPlain, hdigit]

theorem readPlain_whole {w : List Char} (hw : IsNumeral w) (hfits : valueOf w < twoTo 96)
    (rest : List Char) :
    readPlain false false 0 0 (w ++ rest) = readPlain false true (valueOf w) 0 rest := by
  obtain ⟨c, cs, rfl⟩ := List.exists_cons_of_ne_nil hw.1
  rw [readPlain_digits false false rest hw.2 hfits (fun _ => rfl) nofun]
  rfl

theorem readPlain_fraction {m : Nat} {f : List Char} (hf : ∀ c ∈ f, isDigit c)
    (hfits : valueFrom m f < twoTo 96) (hlength : f.length ≤ maxScale) :
    readPlain true true m 0 f = some (valueFrom m f, f.length) := by
  have hplaces : 0 + f.length ≤ maxScale := by rwa [Nat.zero_add]
  have hread := readPlain_digits true true [] hf hfits nofun fun _ => hplaces
  rw [List.append_nil, if_pos rfl, Nat.zero_add] at hread
  rw [hread]
  rfl

/-! ## Plain notation -/

/-- What starts with a digit has no sign. -/
theorem plain?_of_readPlain {c : Char} {cs : List Char} {m s : Nat} (hc : isDigit c)
    (hread : readPlain false false 0 0 (c :: cs) = some (m, s)) (hm : m < twoTo 96)
    (hs : s ≤ 28) : plain? (c :: cs) = some ⟨false, m, s, hm, hs⟩ := by
  have hsigned : ∀ sign : Char, isDigit sign = false → c ≠ sign := by
    rintro sign hsign rfl
    rw [hc] at hsign
    cases hsign
  unfold plain?
  split
  rename_i negative body hmatch
  split at hmatch
  · rename_i heq
    exact absurd (List.cons.inj heq).1 (hsigned '-' rfl)
  · rename_i heq
    exact absurd (List.cons.inj heq).1 (hsigned '+' rfl)
  · obtain ⟨rfl, rfl⟩ := Prod.mk.inj hmatch
    simp [hread, ofParts?, hm, hs]

/-- A numeral that fits the mantissa is read as it is. -/
theorem plain?_numeral {w : List Char} (hw : IsNumeral w) (hfits : valueOf w < twoTo 96) :
    plain? w = some ⟨false, valueOf w, 0, hfits, Nat.zero_le _⟩ := by
  have hread : readPlain false false 0 0 w = some (valueOf w, 0) := by
    have hread := readPlain_whole hw hfits []
    rwa [List.append_nil] at hread
  obtain ⟨c, cs, rfl⟩ := List.exists_cons_of_ne_nil hw.1
  exact plain?_of_readPlain (hw.2 c List.mem_cons_self) hread hfits _

/-- A number with a point is read with all its digits, if they fit the mantissa, and with its
    places as they are written. -/
theorem plain?_point {w f : List Char} (hw : IsNumeral w) (hf : IsNumeral f)
    (hlength : f.length ≤ maxScale) (hfits : valueOf (w ++ f) < twoTo 96) :
    plain? (w ++ '.' :: f) = some ⟨false, valueOf (w ++ f), f.length, hfits, hlength⟩ := by
  have hwhole : valueOf w < twoTo 96 := by
    refine Nat.lt_of_le_of_lt ?_ hfits
    rw [valueOf_append]
    exact Nat.le_add_right_of_le (Nat.le_mul_of_pos_right _ (tenTo_pos _))
  have happend : valueFrom (valueOf w) f = valueOf (w ++ f) := (valueFrom_append 0 w f).symm
  have hread : readPlain false false 0 0 (w ++ '.' :: f) = some (valueOf (w ++ f), f.length) := by
    rw [readPlain_whole hw hwhole, readPlain_point, readPlain_fraction hf.2 (happend ▸ hfits)
      hlength, happend]
  obtain ⟨c, cs, rfl⟩ := List.exists_cons_of_ne_nil hw.1
  exact plain?_of_readPlain (hw.2 c List.mem_cons_self) hread hfits hlength

/-- **What denotes a number of units is read exactly as a decimal**, if its digits fit the
    mantissa. -/
theorem exists_plain?_of_denotes {cs : List Char} {n : Nat} (h : Amount.Denotes cs n)
    (hfits : valueOf (cs.filter (· ≠ '.')) < twoTo 96) :
    ∃ d, plain? cs = some d ∧ d.negative = false ∧
      d.mantissa * Amount.unit = n * tenTo d.scale := by
  have hdigits : ∀ {ds : List Char}, IsNumeral ds → ds.filter (· ≠ '.') = ds := by
    intro ds hds
    refine List.filter_eq_self.2 fun c hc => decide_eq_true ?_
    rintro rfl
    exact hds.point_not_mem hc
  cases h with
  | whole hw =>
    rw [hdigits hw] at hfits
    exact ⟨_, plain?_numeral hw hfits, rfl, (Nat.mul_one _).symm⟩
  | @point w f hw hf hlength =>
    have hpoint : (w ++ '.' :: f).filter (· ≠ '.') = w ++ f := by
      rw [List.filter_append, hdigits hw, List.filter_cons_of_neg (by decide), hdigits hf]
    rw [hpoint] at hfits
    refine ⟨_, plain?_point hw hf (hlength.trans (by decide)) hfits, rfl, ?_⟩
    calc valueOf (w ++ f) * Amount.unit
        = valueOf w * Amount.unit * tenTo f.length + valueOf f * Amount.unit := by
          rw [valueOf_append]
          ring
      _ = (valueOf w * Amount.unit + valueOf f * tenTo (Amount.places - f.length)) *
            tenTo f.length := by
          rw [Nat.add_mul, Nat.mul_assoc (valueOf f), Nat.mul_comm (tenTo (_ - _)),
            ← Amount.unit_eq hlength]

end Decimal

namespace State

/-- **The two readers of a number agree.** Where the text of a field is an amount without blank
    ends, and its digits without the point fit the mantissa of a decimal, it is read as a decimal
    too, and the amount of this decimal is the amount that is read. -/
theorem amount_agrees_with_decimal {s : Fields} {name text : String} {node : Node}
    {kind : TextKind} {a : Amount} (hget : s.get? name = some node)
    (hcontent : node.content = .text kind text) (hkind : kind = .decimal ∨ kind = .preciseDecimal)
    (htrim : trim text = text) (haccepted : Amount.parse text = .ok a)
    (hfits : valueOf (text.toList.filter (· ≠ '.')) ≤ twoTo 96 - 1) :
    s.amount name = .ok a ∧
      ∃ d, s.decimal name = .ok d ∧ Amount.ofDecimal d = s.amount name := by
  have hdecimal : kind.isDecimal := by rcases hkind with rfl | rfl <;> rfl
  have hamount : s.amount name = .ok a :=
    ((Fields.readsAmount_of_get? hget hcontent hdecimal).ok_iff a).2 haccepted
  have hchars : trimChars text.toList = text.toList := by
    rw [← String.toList_ofList (l := trimChars text.toList)]
    exact congrArg String.toList htrim
  have hdenotes : Amount.Denotes text.toList a.atto :=
    hchars ▸ Amount.parse_eq_ok_iff.1 haccepted
  obtain ⟨d, hplain, hsign, hunits⟩ := Decimal.exists_plain?_of_denotes hdenotes
    ((Nat.le_sub_one_iff_lt (twoTo_pos 96)).1 hfits)
  have hread : Fields.ReadsText (s.decimal name) name "Decimal" text
      fun d => Decimal.ofText? text = some d :=
    Fields.readText_of_get? hget hcontent hdecimal
  refine ⟨hamount, d, (hread.ok_iff d).2 ?_, ?_⟩
  · rw [Decimal.ofText?, hplain]
    rfl
  · rw [hamount, Amount.ofDecimal_eq_ok_iff]
    exact ⟨Or.inr hsign, hunits⟩

/-- Also where the digits are the greatest mantissa, behind zeros. -/
theorem amount_agrees_with_decimal_greatest_mantissa :
    let text : String := "0079228162514.264337593543950335"
    let s : Fields := ⟨[("supply", .plain (.text .preciseDecimal text))]⟩
    valueOf (text.toList.filter (· ≠ '.')) = twoTo 96 - 1 ∧
      ∃ a d, a.atto = twoTo 96 - 1 ∧ s.amount "supply" = .ok a ∧ s.decimal "supply" = .ok d ∧
        Amount.ofDecimal d = .ok a := by
  intro text s
  have hfits : valueOf (text.toList.filter (· ≠ '.')) = twoTo 96 - 1 := by decide
  have htrim : trim text = text := by decide
  have hchars : trimChars text.toList = "0079228162514".toList ++ '.' ::
      "264337593543950335".toList := by decide
  have hdenotes : Amount.Denotes (trimChars text.toList) (twoTo 96 - 1) :=
    hchars ▸ .point (by decide) (by decide) (by decide)
  have hparse : Amount.parse text = .ok ⟨twoTo 96 - 1, by decide⟩ :=
    Amount.parse_eq_ok_iff.2 hdenotes
  have hget : s.get? "supply" = some (.plain (.text .preciseDecimal text)) := rfl
  obtain ⟨hamount, d, hdecimal, hsame⟩ :=
    amount_agrees_with_decimal hget rfl (Or.inr rfl) htrim hparse hfits.le
  exact ⟨hfits, _, d, rfl, hamount, hdecimal, hsame.trans hamount⟩

end State

end LedgerClient
