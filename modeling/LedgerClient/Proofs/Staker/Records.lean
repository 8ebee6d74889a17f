/-
  Positions in decorated records.

  * `Framed number raw`: the text of a field is a number with decorations around it, and
    `FramedEpoch`: also with the suffix of the epoch's type behind it;
  * `ofFields_of_not_holdsEpoch`: an epoch that is no number is told as it is;
  * `position_recovered`: the position is read through the decorations, however they look. Only
    where they make a `u64` of the epoch 64 nothing is left of it.
-/
import LedgerClient.Proofs.Staker.Fields

namespace LedgerClient.StakerInfo

open Text

/-! ## Decorated numbers -/

/-- What may stand in front of a number: no digit, and at its end no sign and no point. -/
structure IsLead (front : String) : Prop where
  decoration : IsDecoration front.toList
  minus : front.toList.getLast? ≠ some '-'
  point : front.toList.getLast? ≠ some '.'

/-- The text is the number with decorations around it. -/
inductive Framed (number : String) : String → Prop
  | intro {front back : String} (hfront : IsLead front) (hback : IsDecoration back.toList) :
      Framed number (front ++ number ++ back)

/-- The text is the number of an epoch with decorations around it, or with one in front and the
    suffix of its type behind. The suffix does not begin in front of the number. -/
inductive FramedEpoch (epoch : Nat) : String → Prop
  | bare {front back : String} (hfront : IsLead front) (hback : IsDecoration back.toList)
      (hnot : ¬(front.toList.getLast? = some 'u' ∧ epoch = 64 ∧ back = "")) :
      FramedEpoch epoch (front ++ numeral epoch ++ back)
  | suffixed {front : String} (hfront : IsLead front)
      (hnot : ¬(front.toList.getLast? = some 'u' ∧ epoch = 64)) :
      FramedEpoch epoch (front ++ numeral epoch ++ "u64")

theorem holdsAmount_of_framed {raw : String} {a : Amount} (h : Framed a.text raw) :
    HoldsAmount raw a := by
  obtain ⟨hfront, hback⟩ := h
  rename_i front back
  refine ⟨a.text.toList, ⟨front.toList, back.toList, ?_, hfront.decoration, hback⟩,
    Amount.denotes_text a⟩
  rw [String.toList_append, String.toList_append]

theorem toList_numeral (n : Nat) : (numeral n).toList = digits n :=
  String.toList_ofList

/-- The number 64 is told by its digits. -/
theorem digits_eq_iff {n : Nat} : digits n = ['6', '4'] ↔ n = 64 := by
  constructor
  · intro h
    rw [← valueOf_digits n, h]
    rfl
  · rintro rfl
    have hshort : IsShortNumeral ['6', '4'] := by decide
    exact digits_valueOf hshort

theorem holdsEpoch_of_framed {raw : String} {epoch : Nat} (hlt : epoch < twoTo 64)
    (h : FramedEpoch epoch raw) : HoldsEpoch raw epoch := by
  have hnumeral := isNumeral_digits epoch
  cases h with
  | @bare front back hfront hback hnot =>
    refine ⟨_, [], digits epoch, (List.append_nil _).symm, .none, ?_, ?_, hnumeral,
      valueOf_digits epoch, hlt⟩
    · rw [String.toList_append, String.toList_append, toList_numeral,
        suffix_iff hfront.decoration hnumeral hback, digits_eq_iff]
      rintro ⟨hempty, hlast, h64⟩
      exact hnot ⟨hlast, h64, String.toList_eq_nil_iff.1 hempty⟩
    · refine ⟨front.toList, back.toList, ?_, hfront.decoration, hback⟩
      rw [String.toList_append, String.toList_append, toList_numeral]
  | @suffixed front hfront hnot =>
    refine ⟨front.toList ++ digits epoch, suffix, digits epoch, ?_, .more .none, ?_, ?_, hnumeral,
      valueOf_digits epoch, hlt⟩
    · rw [String.toList_append, String.toList_append, toList_numeral]
      rfl
    · rw [← List.append_nil (front.toList ++ _), suffix_iff hfront.decoration hnumeral
        (by decide), digits_eq_iff]
      rintro ⟨-, hlast, h64⟩
      exact hnot ⟨hlast, h64⟩
    · exact ⟨front.toList, [], (List.append_nil _).symm, hfront.decoration, by decide⟩

/-! ## Mismatches -/

section Mismatches

variable {fields : List String}

/-- A text without a digit in front of its suffixes holds no epoch. -/
theorem not_holdsEpoch_of_suffixes {raw : String} {front tail : List Char}
    (hraw : raw.toList = front ++ tail) (hfront : IsDecoration front) (htail : Suffixes tail)
    (e : Nat) : ¬HoldsEpoch raw e := by
  rintro ⟨cs, tail', n, hraw', htail', hnot, ⟨before, behind, hcs, -, -⟩, ⟨hne, hdigit⟩, -⟩
  have hplain : ¬suffix <:+ front := fun h =>
    absurd (hfront '4' (h.subset (by simp [suffix]))) (by decide)
  -- both are what is left without the suffixes
  obtain rfl : front = cs := by
    rw [← dropSuffix_eq_iff.2 ⟨hplain, tail, htail, hraw⟩,
      ← dropSuffix_eq_iff.2 ⟨hnot, tail', htail', hraw'⟩]
  obtain ⟨c, hc⟩ := List.exists_mem_of_ne_nil n hne
  have hdecimal := isDecimalDigit_of_isDigit (hdigit c hc)
  rw [hfront c (by simp [hcs, hc])] at hdecimal
  cases hdecimal

/-- An epoch that is no number is told first, and as it is. -/
theorem ofFields_of_not_holdsEpoch {raw : String} (hraw : fields[3]? = some raw)
    (h : ∀ e, ¬HoldsEpoch raw e) :
    ofFields fields = .error (.schemaMismatch "unstake_done_epoch" "u64" raw) := by
  have hnone : bounded? (twoTo 64) (stripDecorations (dropSuffix raw)) = none :=
    Option.eq_none_iff_forall_ne_some.2 fun e he => h e (bounded?_dropSuffix_iff.1 he)
  simp only [ofFields, epoch, field_eq_ok_iff.2 hraw, bind, Except.bind, hnone]

end Mismatches

/-! ## Records -/

/-- **A position is recovered through its decorations.** From the validator, its name and the
    four numbers, each with decorations around it, the position with these numbers is read, be
    there further fields or not. A text that ends like the suffix where it should show the epoch
    64 holds no epoch, which is told; and a record of fewer than six fields is a mismatch, where
    none of its amounts stops the program. -/
theorem position_recovered :
    (∀ (s : StakerInfo) (unstaking epoch withdrawable staked : String) (more : List String),
      s.unstakeDoneEpoch < twoTo 64 → Framed s.unstaking.text unstaking →
      FramedEpoch s.unstakeDoneEpoch epoch → Framed s.withdrawable.text withdrawable →
      Framed s.staked.text staked →
      ofFields (s.validator :: s.validatorName :: unstaking :: epoch :: withdrawable :: staked ::
        more) = .ok s) ∧
    (∀ (fields : List String) (front back : String), IsDecoration front.toList →
      front.toList.getLast? = some 'u' → back = "" ∨ back = "u64" →
      fields[3]? = some (front ++ numeral 64 ++ back) →
      ofFields fields = .error
        (.schemaMismatch "unstake_done_epoch" "u64" (front ++ numeral 64 ++ back))) ∧
    ∀ fields : List String, fields.length < 6 → ¬Overruns fields →
      ∃ fault, ofFields fields = .error fault ∧ fault.kind = "SchemaMismatch" := by
  refine ⟨fun s u t w k more hlt hu ht hw hk => ?_, fun fields front back hfront hlast hback hraw =>
    ?_, fun fields hshort hfit => ?_⟩
  · exact ofFields_eq_ok_iff.2 ⟨u, t, w, k, more, rfl, holdsAmount_of_framed hu,
      holdsEpoch_of_framed hlt ht, holdsAmount_of_framed hw, holdsAmount_of_framed hk⟩
  · obtain ⟨before, hbefore⟩ := List.getLast?_eq_some_iff.1 hlast
    have hdecoration : IsDecoration before := fun c hc => hfront c (by simp [hbefore, hc])
    -- the `u` and the number are a suffix, and so is what follows it
    have hchars : (front ++ numeral 64 ++ back).toList = before ++ (suffix ++ back.toList) := by
      rw [String.toList_append, String.toList_append, toList_numeral, digits_eq_iff.2 rfl, hbefore]
      simp [suffix]
    have hsuffixes : Suffixes (suffix ++ back.toList) := by
      rcases hback with rfl | rfl
      · exact .more .none
      · exact .more (.more .none)
    exact ofFields_of_not_holdsEpoch hraw
      (not_holdsEpoch_of_suffixes hchars hdecoration hsuffixes)
  · cases hresult : ofFields fields with
    | error fault => exact ⟨fault, rfl, (ofFields_mayMismatch hfit).error hresult⟩
    | ok s =>
      obtain ⟨u, t, w, k, more, rfl, -⟩ := ofFields_eq_ok_iff.1 hresult
      simp only [List.length_cons] at hshort
      omega

/-- Also with a `u` in front of another epoch than 64, behind which the suffix stands; and a record
    without the amount staked is a mismatch. -/
theorem position_recovered_neutral :
    (∃ fault, ofFields ["component_tdx_2_1val", "Neutral Validator", "Decimal(\"12.5\")", "u340u64",
        "≈ 0"] = .error fault ∧ fault.kind = "SchemaMismatch") ∧
    ∃ s, ofFields ["component_tdx_2_1val", "Neutral Validator", "Decimal(\"12.5\")", "u340u64",
        "≈ 0", "100 NAR", "more"] = .ok s ∧
      s.unstaking.atto = 125 * tenTo 17 ∧ s.unstakeDoneEpoch = 340 ∧
      s.staked.atto = 100 * Amount.unit := by
  have hunstaking : (⟨125 * tenTo 17, by decide⟩ : Amount).text = "12.5" := by
    have hchars : "12.5".toList = ['1', '2'] ++ '.' :: ['5'] := by decide
    exact Amount.text_of_canonical (hchars ▸ .point (by decide) (by decide) (by decide) (by decide))
      (hchars ▸ .point (by decide) (by decide) (by decide))
  have hzero : Amount.zero.text = "0" :=
    Amount.text_of_canonical (.whole (by decide)) (.whole (by decide))
  have hstaked : (⟨100 * Amount.unit, by decide⟩ : Amount).text = "100" :=
    Amount.text_of_canonical (.whole (by decide)) (.whole (by decide))
  have hlead : ∀ front : String, IsDecoration front.toList ∧ front.toList.getLast? ≠ some '-' ∧
      front.toList.getLast? ≠ some '.' → IsLead front := fun front h => ⟨h.1, h.2.1, h.2.2⟩
  let s : StakerInfo := ⟨"component_tdx_2_1val", "Neutral Validator", ⟨125 * tenTo 17, by decide⟩,
    340, Amount.zero, ⟨100 * Amount.unit, by decide⟩⟩
  have hu : Framed s.unstaking.text "Decimal(\"12.5\")" := by
    rw [hunstaking]
    exact @Framed.intro "12.5" "Decimal(\"" "\")" (hlead _ (by decide)) (by decide)
  have ht : FramedEpoch s.unstakeDoneEpoch "u340u64" := by
    have hshort : IsShortNumeral "340".toList := by decide
    have hnumeral : numeral 340 = "340" := congrArg String.ofList (digits_valueOf hshort)
    have h := @FramedEpoch.suffixed 340 "u" (hlead _ (by decide)) (by decide)
    rwa [hnumeral] at h
  have hw : Framed s.withdrawable.text "≈ 0" := by
    rw [hzero]
    exact @Framed.intro "0" "≈ " "" (hlead _ (by decide)) (by decide)
  have hk : Framed s.staked.text "100 NAR" := by
    rw [hstaked]
    exact @Framed.intro "100" "" " NAR" (hlead _ (by decide)) (by decide)
  let short : List String :=
    ["component_tdx_2_1val", "Neutral Validator", "Decimal(\"12.5\")", "u340u64", "≈ 0"]
  have hplain : short.all fun raw => raw.toList.all fun c => !isDecimalDigit c || isDigit c := by
    decide
  have hfit : ¬Overruns short := not_overruns fun raw hraw c hc hdecimal => by
    simpa [hdecimal] using List.all_eq_true.1 (List.all_eq_true.1 hplain raw hraw) c hc
  obtain ⟨hrecovered, -, hshort⟩ := position_recovered
  exact ⟨hshort short (by decide) hfit, s,
    hrecovered s _ _ _ _ ["more"] (by decide) hu ht hw hk, rfl, rfl, rfl⟩

/-- In front of the epoch 64 a `u` makes a suffix of it, and the epoch is not recovered. -/
theorem epoch_taken_for_suffix :
    IsLead "u" ∧ "u" ++ numeral 64 ++ "" = "u64" ∧
      ofFields ["component_tdx_2_1val", "Neutral Validator", "1", "u64", "1", "1"] =
        .error (.schemaMismatch "unstake_done_epoch" "u64" "u64") := by
  have hraw : "u64".toList = [] ++ suffix := by decide
  have hnumeral : "u" ++ numeral 64 ++ "" = "u64" := by
    rw [numeral, digits_eq_iff.2 rfl]
    decide
  refine ⟨⟨by decide, by decide, by decide⟩, hnumeral, ofFields_of_not_holdsEpoch rfl ?_⟩
  exact not_holdsEpoch_of_suffixes hraw (by decide) (.more .none)

end LedgerClient.StakerInfo
