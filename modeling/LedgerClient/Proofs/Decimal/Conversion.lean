/-
  Amounts of decimals.

  * `dropZeros_value` and `dropZeros_normal`: the normal form has the value of the decimal, and
    no zero at the end of its fraction;
  * `denotes_absChars_iff`: the text of a decimal is a number in plain notation just where it has
    at most eighteen places;
  * `ofDecimal_eq_ok_iff`: the amount of a decimal counts as many units as the decimal comes to;
  * `ofDecimal_never_rounds`: there is one just where this is a natural number, however many
    zeros the decimal is written with.
-/
import LedgerClient.Decimal
import LedgerClient.Proofs.Amount.Canonical

namespace LedgerClient

open Text

namespace Decimal

/-! ## Normal form -/

/-- Mantissa and scale of the normal form stand for the same number. -/
theorem dropZeros_value (m s : Nat) :
    (dropZeros m s).1 * tenTo s = m * tenTo (dropZeros m s).2 := by
  induction s generalizing m with
  | zero => rfl
  | succ s ih =>
    unfold dropZeros
    split
    · rename_i hzero
      calc (dropZeros (m / 10) s).1 * tenTo (s + 1)
          = (dropZeros (m / 10) s).1 * tenTo s * 10 := (Nat.mul_assoc ..).symm
        _ = m / 10 * tenTo (dropZeros (m / 10) s).2 * 10 := by rw [ih]
        _ = m / 10 * 10 * tenTo (dropZeros (m / 10) s).2 := Nat.mul_right_comm ..
        _ = m * tenTo (dropZeros (m / 10) s).2 := by
          rw [Nat.div_mul_cancel (Nat.dvd_of_mod_eq_zero hzero)]
    · rfl

/-- No zero is left at the end of the fraction. -/
theorem dropZeros_normal (m s : Nat) : (dropZeros m s).2 = 0 ∨ ¬10 ∣ (dropZeros m s).1 := by
  induction s generalizing m with
  | zero => exact Or.inl rfl
  | succ s ih =>
    unfold dropZeros
    split
    · exact ih _
    · rename_i hzero
      exact Or.inr (mt Nat.mod_eq_zero_of_dvd hzero)

/-- The decimals stand for the same number; a zero does so with either sign. -/
def SameValue (d e : Decimal) : Prop :=
  d.mantissa * tenTo e.scale = e.mantissa * tenTo d.scale ∧
    (d.mantissa = 0 ∨ d.negative = e.negative)

theorem SameValue.mantissa_eq_zero {d e : Decimal} (h : d.SameValue e) (hzero : d.mantissa = 0) :
    e.mantissa = 0 := by
  have hvalue := h.1
  rw [hzero, Nat.zero_mul, eq_comm, Nat.mul_eq_zero] at hvalue
  exact hvalue.resolve_right (tenTo_pos _).ne'

theorem SameValue.symm {d e : Decimal} (h : d.SameValue e) : e.SameValue d :=
  ⟨h.1.symm, h.2.imp h.mantissa_eq_zero Eq.symm⟩

/-! ## Text -/

/-- The text of a decimal consists of a whole part and its places. -/
theorem exists_absChars (m s : Nat) : ∃ w f, IsShortNumeral w ∧ (∀ c ∈ f, isDigit c) ∧
    f.length = s ∧ valueOf w * tenTo s + valueOf f = m ∧
      absChars m s = if s = 0 then w else w ++ '.' :: f := by
  obtain ⟨w, f, hpad, hw, hf, hlength, hvalue⟩ := exists_split_padLeft s m
  refine ⟨w, f, hw, hf, hlength, hvalue, ?_⟩
  have hcut : (w ++ f).length - s = w.length := by
    rw [List.length_append, hlength, Nat.add_sub_cancel]
  rw [absChars, hpad]
  split
  · rename_i hs
    rw [List.eq_nil_of_length_eq_zero (hlength.trans hs), List.append_nil]
  · simp only [hcut, List.take_left, List.drop_left]

theorem digitEnds_absChars (m s : Nat) : DigitEnds (absChars m s) := by
  obtain ⟨w, f, hw, hf, hlength, -, htext⟩ := exists_absChars m s
  rw [htext]
  split
  · exact digitEnds_of_isNumeral hw.1
  · rename_i hs
    exact digitEnds_point hw.1 ⟨by rintro rfl; exact hs hlength.symm, hf⟩

end Decimal

namespace Amount

open Decimal

/-- What a number with a point denotes is told by its parts. -/
theorem denotes_point_iff {w f : List Char} {n : Nat} (hw : IsNumeral w) (hf : IsNumeral f) :
    Denotes (w ++ '.' :: f) n ↔
      f.length ≤ places ∧ valueOf w * unit + valueOf f * tenTo (places - f.length) = n := by
  constructor
  · generalize hcs : w ++ '.' :: f = cs
    rintro (hw' | ⟨hw', hf', hlength⟩)
    · exact absurd (hcs ▸ List.mem_append_right w List.mem_cons_self) hw'.point_not_mem
    · obtain ⟨rfl, -, rfl⟩ := (List.append_cons_inj_of_notMem hw.point_not_mem hf.point_not_mem).1 hcs
      exact ⟨hlength, rfl⟩
  · rintro ⟨hlength, rfl⟩
    exact .point hw hf hlength

/-- The text of a decimal denotes as many units as it comes to, with at most eighteen places. -/
theorem denotes_absChars_iff {m s n : Nat} :
    Denotes (absChars m s) n ↔ s ≤ places ∧ m * tenTo (places - s) = n := by
  obtain ⟨w, f, hw, hf, hlength, hvalue, htext⟩ := exists_absChars m s
  rw [htext]
  split
  · rename_i hs
    subst hs
    obtain rfl := List.eq_nil_of_length_eq_zero hlength
    have hm : valueOf w = m := by simpa [valueOf, valueFrom] using hvalue
    rw [← hm, and_iff_right (Nat.zero_le _)]
    exact ⟨fun h => (Denotes.whole hw.1).unique h, fun h => h ▸ .whole hw.1⟩
  · rename_i hs
    have hnumeral : IsNumeral f := ⟨by rintro rfl; exact hs hlength.symm, hf⟩
    rw [denotes_point_iff hw.1 hnumeral, hlength]
    refine and_congr_right fun hle => ?_
    have hunits : m * tenTo (places - s) =
        valueOf w * unit + valueOf f * tenTo (places - s) := by
      rw [← hvalue, unit_eq (hlength.trans_le hle), hlength]
      ring
    rw [hunits]

/-! ## Amounts -/

/-- A number in normal form comes to `n` units with at most eighteen places just where it does
    so at any scale: a place behind the eighteenth would be a fraction of a unit. -/
theorem units_iff {m s m' s' n : Nat} (hvalue : m' * tenTo s = m * tenTo s')
    (hnormal : s' = 0 ∨ ¬10 ∣ m') :
    s' ≤ places ∧ m' * tenTo (places - s') = n ↔ m * unit = n * tenTo s := by
  have hscaled : m * unit = n * tenTo s ↔ m' * unit = n * tenTo s' := by
    rw [← Nat.mul_left_inj (tenTo_pos s').ne', Nat.mul_right_comm, ← hvalue,
      Nat.mul_right_comm m', Nat.mul_right_comm n, Nat.mul_left_inj (tenTo_pos s).ne']
  rw [hscaled]
  rcases Nat.lt_or_ge places s' with hlt | hle
  · -- A multiple of ten units would end with a zero.
    refine iff_of_false (fun h => absurd h.1 (Nat.not_le.2 hlt)) fun h => ?_
    obtain ⟨k, rfl⟩ : ∃ k, s' = k + 1 + places :=
      ⟨s' - places - 1, by omega⟩
    have hm : m' = n * tenTo (k + 1) := by
      rw [tenTo_add, ← Nat.mul_assoc] at h
      exact Nat.mul_right_cancel (tenTo_pos places) h
    rcases hnormal with h0 | hten
    · omega
    · exact hten ⟨n * tenTo k, by rw [hm, tenTo_succ]; ring⟩
  · have hunit : unit = tenTo (places - s') * tenTo s' := by
      rw [← tenTo_add, Nat.sub_add_cancel hle, unit]
    rw [and_iff_right hle, hunit, ← Nat.mul_assoc, Nat.mul_left_inj (tenTo_pos s').ne']

/-- A decimal within its capacity is no greater than the greatest amount. -/
theorem lt_of_units {d : Decimal} {n : Nat} (h : d.mantissa * unit = n * tenTo d.scale) :
    n < twoTo 191 := by
  calc n ≤ n * tenTo d.scale := Nat.le_mul_of_pos_right n (tenTo_pos _)
    _ = d.mantissa * unit := h.symm
    _ < twoTo 96 * unit := Nat.mul_lt_mul_of_pos_right d.mantissa_lt unit_pos
    _ < twoTo 191 := by decide

theorem trimChars_normalize (d : Decimal) : trimChars d.abs.normalize.text.toList =
    absChars (dropZeros d.mantissa d.scale).1 (dropZeros d.mantissa d.scale).2 := by
  have htext : d.abs.normalize.text.toList =
      absChars (dropZeros d.mantissa d.scale).1 (dropZeros d.mantissa d.scale).2 := by
    simp [Decimal.text, Decimal.normalize, Decimal.abs]
  rw [htext, trimChars_eq_self (digitEnds_absChars ..)]

/-- The normal form of a decimal is read as the amount that counts as many units. -/
theorem parse_normalize_iff {d : Decimal} {a : Amount} :
    parse d.abs.normalize.text = .ok a ↔ d.mantissa * unit = a.atto * tenTo d.scale := by
  rw [parse_eq_ok_iff, trimChars_normalize, denotes_absChars_iff]
  exact units_iff (dropZeros_value ..) (dropZeros_normal ..)

/-- The text of a decimal never stops the program, however many places it has. -/
theorem not_overruns_normalize (d : Decimal) : ¬Overruns d.abs.normalize.text := by
  rw [Overruns, trimChars_normalize]
  obtain ⟨w, f, hw, hf, -, -, htext⟩ :=
    exists_absChars (dropZeros d.mantissa d.scale).1 (dropZeros d.mantissa d.scale).2
  rw [htext]
  split
  · exact not_overlong fun c hc _ => hw.1.2 c hc
  · exact not_overlong_point hw.1.2 hf

theorem ofDecimal_of_negative {d : Decimal} (hnegative : d.negative) (hzero : d.mantissa ≠ 0) :
    ofDecimal d = .error (.invalidAmount d.text) := by
  simp [ofDecimal, hnegative, Decimal.isZero, hzero]

theorem ofDecimal_of_nonnegative {d : Decimal} (h : d.mantissa = 0 ∨ d.negative = false) :
    ofDecimal d = parse d.abs.normalize.text := by
  rw [ofDecimal, if_neg]
  rcases h with h | h <;> simp [h, Decimal.isZero]

/-- **The amount of a decimal** counts exactly as many units as the decimal comes to. -/
theorem ofDecimal_eq_ok_iff {d : Decimal} {a : Amount} :
    ofDecimal d = .ok a ↔
      (d.mantissa = 0 ∨ d.negative = false) ∧ d.mantissa * unit = a.atto * tenTo d.scale := by
  by_cases h : d.mantissa = 0 ∨ d.negative = false
  · rw [ofDecimal_of_nonnegative h, parse_normalize_iff, and_iff_right h]
  · rw [not_or, Bool.not_eq_false] at h
    simp [ofDecimal_of_negative h.2 h.1, h]

/-- A decimal that comes to a whole number of units has an amount, unless it is negative. -/
theorem exists_ofDecimal_iff {d : Decimal} : (∃ a, ofDecimal d = .ok a) ↔
    d.mantissa = 0 ∨ d.negative = false ∧ tenTo d.scale ∣ d.mantissa * unit := by
  constructor
  · rintro ⟨a, ha⟩
    obtain ⟨hsign, hunits⟩ := ofDecimal_eq_ok_iff.1 ha
    exact hsign.imp_right fun hsign => ⟨hsign, a.atto, hunits.trans (Nat.mul_comm ..)⟩
  · intro h
    obtain ⟨n, hn⟩ : tenTo d.scale ∣ d.mantissa * unit := by
      rcases h with h | ⟨-, h⟩
      · rw [h, Nat.zero_mul]
        exact Nat.dvd_zero _
      · exact h
    have hunits : d.mantissa * unit = n * tenTo d.scale := hn.trans (Nat.mul_comm ..)
    exact ⟨⟨n, lt_of_units hunits⟩, ofDecimal_eq_ok_iff.2 ⟨h.imp_right And.left, hunits⟩⟩

/-- What has no amount is quoted, as it is written where it is negative. -/
theorem ofDecimal_fault {d : Decimal} {fault : Fault} (h : ofDecimal d = .error fault) :
    fault = .invalidAmount (if d.negative then d.text else d.abs.normalize.text) := by
  by_cases hsign : d.mantissa = 0 ∨ d.negative = false
  · rw [ofDecimal_of_nonnegative hsign] at h
    rcases hsign with hzero | hnegative
    · -- A zero has an amount, whatever its sign is.
      obtain ⟨a, ha⟩ := exists_ofDecimal_iff.2 (Or.inl hzero)
      rw [ofDecimal_of_nonnegative (Or.inl hzero), h] at ha
      cases ha
    · rw [hnegative, if_neg Bool.false_ne_true]
      exact ((parse_eq_error_iff (not_overruns_normalize d)).1 h).1
  · rw [not_or, Bool.not_eq_false] at hsign
    rw [ofDecimal_of_negative hsign.2 hsign.1] at h
    rw [if_pos hsign.2]
    exact (Except.error.inj h).symm

/-- Decimals of the same value have the same amount. -/
theorem ofDecimal_congr {d e : Decimal} {a : Amount} (h : d.SameValue e)
    (ha : ofDecimal d = .ok a) : ofDecimal e = .ok a := by
  obtain ⟨hsign, hunits⟩ := ofDecimal_eq_ok_iff.1 ha
  refine ofDecimal_eq_ok_iff.2 ⟨?_, ?_⟩
  · by_cases hzero : d.mantissa = 0
    · exact Or.inl (h.mantissa_eq_zero hzero)
    · exact Or.inr ((h.2.resolve_left hzero).symm.trans (hsign.resolve_left hzero))
  · refine Nat.mul_right_cancel (tenTo_pos d.scale) ?_
    calc e.mantissa * unit * tenTo d.scale = e.mantissa * tenTo d.scale * unit :=
          Nat.mul_right_comm ..
      _ = d.mantissa * unit * tenTo e.scale := by rw [← h.1, Nat.mul_right_comm]
      _ = a.atto * tenTo e.scale * tenTo d.scale := by rw [hunits, Nat.mul_right_comm]

/-- **The conversion of a decimal never rounds.** A decimal has an amount just where it is zero,
    or positive and a whole number of units, and its amount counts exactly these; any other is
    quoted. What counts is the value alone: zeros behind the eighteenth place never keep a decimal
    from having an amount, and decimals of the same value have the same amount. -/
theorem ofDecimal_never_rounds :
    (∀ d : Decimal, (∃ a, ofDecimal d = .ok a) ↔
      d.mantissa = 0 ∨ d.negative = false ∧ tenTo d.scale ∣ d.mantissa * unit) ∧
    (∀ (d : Decimal) (a : Amount), ofDecimal d = .ok a →
      a.atto = d.mantissa * unit / tenTo d.scale) ∧
    (∀ (d : Decimal) (fault : Fault), ofDecimal d = .error fault →
      fault = .invalidAmount (if d.negative then d.text else d.abs.normalize.text)) ∧
    (∀ (d : Decimal) (m s zeros : Nat), d.negative = false → s ≤ places →
      d.mantissa = m * tenTo zeros → d.scale = s + zeros → ∃ a, ofDecimal d = .ok a) ∧
    ∀ (d e : Decimal) (a : Amount), d.SameValue e →
      (ofDecimal d = .ok a ↔ ofDecimal e = .ok a) := by
  refine ⟨fun d => exists_ofDecimal_iff, fun d a ha => ?_, fun d fault => ofDecimal_fault,
    fun d m s zeros hsign hs hm hscale => exists_ofDecimal_iff.2 (Or.inr ⟨hsign, ?_⟩),
    fun d e a h => ⟨ofDecimal_congr h, ofDecimal_congr h.symm⟩⟩
  · exact Nat.eq_div_of_mul_eq_left (tenTo_pos _).ne' (ofDecimal_eq_ok_iff.1 ha).2.symm
  · -- The zeros cancel, and the other places are among the eighteen.
    have hunit : unit = tenTo s * tenTo (places - s) := by
      rw [← tenTo_add, Nat.add_sub_cancel' hs, unit]
    exact ⟨m * tenTo (places - s), by rw [hm, hscale, tenTo_add, hunit]; ring⟩

/-- Also of a fraction with twenty-five places, of a zero below zero and of one unit in a
    decimal that has a place too many. -/
theorem ofDecimal_never_rounds_long_fraction :
    let long : Decimal := ⟨false, 15 * tenTo 24, 25, by decide, by decide⟩
    let short : Decimal := ⟨false, 15, 1, by decide, by decide⟩
    let zero : Decimal := ⟨true, 0, 28, by decide, by decide⟩
    let tooFine : Decimal := ⟨false, 1, 19, by decide, by decide⟩
    (∃ a, ofDecimal long = .ok a ∧ a.atto = 15 * tenTo 17 ∧ ofDecimal short = .ok a) ∧
      (∃ a, ofDecimal zero = .ok a ∧ a.atto = 0) ∧
      ofDecimal tooFine = .error (.invalidAmount "0.0000000000000000001") := by
  intro long short zero tooFine
  obtain ⟨hok, hatto, hfault, hzeros, hsame⟩ := ofDecimal_never_rounds
  refine ⟨?_, ?_, ?_⟩
  · obtain ⟨a, ha⟩ := hzeros long 15 1 24 rfl (by decide) rfl rfl
    have hvalue : long.SameValue short := ⟨by decide, Or.inr rfl⟩
    exact ⟨a, ha, (hatto _ _ ha).trans (by decide), (hsame _ _ _ hvalue).1 ha⟩
  · obtain ⟨a, ha⟩ := (hok zero).2 (Or.inl rfl)
    exact ⟨a, ha, (hatto _ _ ha).trans (by decide)⟩
  · have hnone : ¬∃ a, ofDecimal tooFine = .ok a := fun h =>
      absurd ((hok tooFine).1 h) (by decide)
    cases hresult : ofDecimal tooFine with
    | ok a => exact absurd ⟨a, hresult⟩ hnone
    | error fault =>
      have hnormal : tooFine.abs.normalize = tooFine := by decide
      have hdigits : digits tooFine.mantissa = ['1'] := digits_of_lt (by decide)
      have htext : tooFine.abs.normalize.text = "0.0000000000000000001" := by
        rw [hnormal, Decimal.text, Decimal.absChars, hdigits]
        decide
      rw [hfault _ _ hresult, htext]
      rfl

end Amount

end LedgerClient
