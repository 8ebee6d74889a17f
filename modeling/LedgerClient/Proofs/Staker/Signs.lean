/-
  Signs and points in front of the numbers of a staker's badge.

  * `BehindSign sign raw`: the first digit of the text stands directly behind the sign, and
    `signed sign raw` puts it there;
  * `not_parse_behind_sign`: an amount is never read behind a sign or a point;
  * `signs_dropped`: the fields of a badge are read behind them, as though they were decorations,
    so that a position has the same numbers with signs and without.
-/
import LedgerClient.Proofs.Staker.Fields

namespace LedgerClient

open Text

namespace StakerInfo

/-- A minus sign, or a decimal point. -/
def IsSign (c : Char) : Prop :=
  c = '-' ∨ c = '.'

instance (c : Char) : Decidable (IsSign c) :=
  inferInstanceAs (Decidable (_ ∨ _))

theorem IsSign.not_digit {c : Char} (h : IsSign c) : isDecimalDigit c = false := by
  rcases h with rfl | rfl <;> decide

/-- The first digit of the text stands directly behind the sign. -/
def BehindSign (sign : Char) (raw : String) : Prop :=
  ∃ front c rest, raw.toList = front ++ sign :: c :: rest ∧ IsDecoration (front ++ [sign]) ∧
    isDecimalDigit c

/-- The text with the sign directly in front of its first digit. -/
def signed (sign : Char) (raw : String) : String :=
  String.ofList (raw.toList.takeWhile (fun c => !isDecimalDigit c) ++
    sign :: raw.toList.dropWhile (fun c => !isDecimalDigit c))

section Signed

variable {raw : String} {sign : Char}

theorem IsSign.decoration_append (h : IsSign sign) {front : List Char}
    (hfront : IsDecoration front) : IsDecoration (front ++ [sign]) :=
  List.forall_mem_append.2 ⟨hfront, List.forall_mem_singleton.2 h.not_digit⟩

/-- Behind a decoration the sign is put directly in front of the number. -/
theorem toList_signed (sign : Char) {front n rest : List Char}
    (hraw : raw.toList = front ++ n ++ rest) (hfront : IsDecoration front) (hne : n ≠ [])
    (hends : DigitEnds n) :
    (signed sign raw).toList = front ++ [sign] ++ n ++ rest := by
  obtain ⟨c, ds, rfl⟩ := List.exists_cons_of_ne_nil hne
  have hc : isDecimalDigit c := by simpa using hends.head c rfl
  have hpos : ∀ d ∈ front, (!isDecimalDigit d) = true := fun d hd => by simp [hfront d hd]
  rw [signed, String.toList_ofList, hraw, List.append_assoc, List.takeWhile_append_of_pos hpos,
    List.dropWhile_append_of_pos hpos, List.cons_append, List.takeWhile_cons_of_neg (by simp [hc]),
    List.dropWhile_cons_of_neg (by simp [hc])]
  simp

theorem behindSign_of_toList {front n rest : List Char} (hsign : IsSign sign)
    (hraw : raw.toList = front ++ [sign] ++ n ++ rest) (hfront : IsDecoration front) (hne : n ≠ [])
    (hends : DigitEnds n) : BehindSign sign raw := by
  obtain ⟨c, ds, rfl⟩ := List.exists_cons_of_ne_nil hne
  exact ⟨front, c, ds ++ rest, by simp [hraw], hsign.decoration_append hfront,
    by simpa using hends.head c rfl⟩

/-- An amount is held behind a sign too. -/
theorem HoldsAmount.signed {a : Amount} (h : HoldsAmount raw a) (hsign : IsSign sign) :
    HoldsAmount (signed sign raw) a ∧ BehindSign sign (StakerInfo.signed sign raw) := by
  obtain ⟨n, ⟨front, back, hraw, hfront, hback⟩, hn⟩ := h
  have hchars := toList_signed sign hraw hfront hn.ne_nil hn.digitEnds
  exact ⟨⟨n, ⟨_, back, hchars, hsign.decoration_append hfront, hback⟩, hn⟩,
    behindSign_of_toList hsign hchars hfront hn.ne_nil hn.digitEnds⟩

/-- An epoch is held behind a sign too: in front of it the sign is the end of no suffix. -/
theorem HoldsEpoch.signed {epoch : Nat} (h : HoldsEpoch raw epoch) (hsign : IsSign sign) :
    HoldsEpoch (signed sign raw) epoch ∧ BehindSign sign (StakerInfo.signed sign raw) := by
  obtain ⟨cs, tail, n, hraw, htail, hnot, ⟨front, back, rfl, hfront, hback⟩, hn, hvalue⟩ := h
  rw [List.append_assoc] at hraw
  have hends := digitEnds_of_isNumeral hn
  have hchars := toList_signed sign hraw hfront hn.1 hends
  have hlead := hsign.decoration_append hfront
  refine ⟨⟨front ++ [sign] ++ n ++ back, tail, n, ?_, htail, ?_, ⟨_, back, rfl, hlead, hback⟩, hn,
    hvalue⟩, behindSign_of_toList hsign hchars hfront hn.1 hends⟩
  · rw [hchars, ← List.append_assoc]
  · rw [suffix_iff hlead hn hback, List.getLast?_concat]
    rintro ⟨-, hlast, -⟩
    obtain rfl := Option.some.inj hlast
    exact absurd hsign (by decide)

end Signed

/-- An amount by itself is never read behind a sign or a point. -/
theorem not_parse_behind_sign {sign : Char} (hsign : IsSign sign) (cs : List Char) (a : Amount) :
    Amount.parse (String.ofList (sign :: cs)) ≠ .ok a := by
  intro h
  have hdenotes := Amount.parse_eq_ok_iff.1 h
  have hblank : isBlank sign = false := by rcases hsign with rfl | rfl <;> decide
  obtain ⟨rest, hrest⟩ := dropEndWhile_cons_of_not cs hblank
  rw [String.toList_ofList, trimChars, dropEnds, dropWhile_cons_of_not cs hblank, hrest] at hdenotes
  simpa [hsign.not_digit] using hdenotes.digitEnds.head sign rfl

/-! ## Records -/

/-- A record that differs from others in two of its amounts. -/
theorem ofFields_of_holds {unstaking staked : String} {x z : Amount}
    (hunstaking : HoldsAmount unstaking x) (hstaked : HoldsAmount staked z) :
    ofFields ["component_tdx_2_1val", "Neutral Validator", unstaking, "340u64", "0", staked] =
      .ok ⟨"component_tdx_2_1val", "Neutral Validator", x, 340, Amount.zero, z⟩ := by
  have hepoch : HoldsEpoch "340u64" 340 :=
    ⟨['3', '4', '0'], suffix, ['3', '4', '0'], by decide, .more .none, by decide,
      ⟨[], [], rfl, by decide, by decide⟩, by decide, by decide, by decide⟩
  have hwithdrawable : HoldsAmount "0" Amount.zero :=
    ⟨['0'], ⟨[], [], by decide, by decide, by decide⟩, .whole (by decide)⟩
  exact ofFields_eq_ok_iff.2
    ⟨unstaking, "340u64", "0", staked, [], rfl, hunstaking, hepoch, hwithdrawable, hstaked⟩

/-- The places of the numbers. -/
def numberPlaces : List Nat :=
  [2, 3, 4, 5]

/-- In one of the numbers the first digit stands directly behind a sign or a point. -/
def CarriesSign (fields : List String) : Prop :=
  ∃ place ∈ numberPlaces, ∃ raw sign, fields[place]? = some raw ∧ IsSign sign ∧
    BehindSign sign raw

/-- A record holds its position with a sign in front of any of the numbers as well. -/
theorem Holds.set_signed {fields : List String} {s : StakerInfo} {sign : Char} {place : Nat}
    {raw : String} (h : Holds fields s) (hsign : IsSign sign) (hplace : place ∈ numberPlaces)
    (hraw : fields[place]? = some raw) :
    Holds (fields.set place (signed sign raw)) s ∧ BehindSign sign (signed sign raw) := by
  obtain ⟨u, t, w, k, more, rfl, hu, ht, hw, hk⟩ := h
  simp only [numberPlaces, List.mem_cons, List.not_mem_nil, or_false] at hplace
  rcases hplace with rfl | rfl | rfl | rfl
  · obtain rfl := Option.some.inj hraw
    obtain ⟨hu, hbehind⟩ := hu.signed hsign
    exact ⟨⟨_, t, w, k, more, rfl, hu, ht, hw, hk⟩, hbehind⟩
  · obtain rfl := Option.some.inj hraw
    obtain ⟨ht, hbehind⟩ := ht.signed hsign
    exact ⟨⟨u, _, w, k, more, rfl, hu, ht, hw, hk⟩, hbehind⟩
  · obtain rfl := Option.some.inj hraw
    obtain ⟨hw, hbehind⟩ := hw.signed hsign
    exact ⟨⟨u, t, _, k, more, rfl, hu, ht, hw, hk⟩, hbehind⟩
  · obtain rfl := Option.some.inj hraw
    obtain ⟨hk, hbehind⟩ := hk.signed hsign
    exact ⟨⟨u, t, w, _, more, rfl, hu, ht, hw, hk⟩, hbehind⟩

/-- **Signs in front of the numbers are dropped.** Where no amount of it stops the program, a
    record with a minus sign or a point directly in front of the first digit of a number is
    refused, as a mismatch, just where it holds no position; and with any sign in front of any of
    its numbers a record is read as it is without, although an amount by itself is refused behind
    either. -/
theorem signs_dropped (fields : List String) :
    (¬Overruns fields →
      ((CarriesSign fields →
          ∃ fault, ofFields fields = .error fault ∧ fault.kind = "SchemaMismatch") ↔
        ¬(CarriesSign fields ∧ ∃ s, Holds fields s))) ∧
    (∀ (s : StakerInfo) (sign : Char) (place : Nat) (raw : String), ofFields fields = .ok s →
      IsSign sign → place ∈ numberPlaces → fields[place]? = some raw →
      CarriesSign (fields.set place (signed sign raw)) ∧
        ofFields (fields.set place (signed sign raw)) = .ok s) ∧
    ∀ (sign : Char) (cs : List Char) (a : Amount), IsSign sign →
      Amount.parse (String.ofList (sign :: cs)) ≠ .ok a := by
  refine ⟨fun hfit => ⟨?_, ?_⟩, fun s sign place raw h hsign hplace hraw => ?_,
    fun _ cs a hsign => not_parse_behind_sign hsign cs a⟩
  · rintro hrefused ⟨hcarries, s, hs⟩
    obtain ⟨fault, hfault, -⟩ := hrefused hcarries
    rw [ofFields_eq_ok_iff.2 hs] at hfault
    cases hfault
  · intro hnone hcarries
    cases hresult : ofFields fields with
    | error fault => exact ⟨fault, rfl, (ofFields_mayMismatch hfit).error hresult⟩
    | ok s => exact absurd ⟨hcarries, s, ofFields_eq_ok_iff.1 hresult⟩ hnone
  · obtain ⟨hholds, hbehind⟩ := (ofFields_eq_ok_iff.1 h).set_signed hsign hplace hraw
    obtain ⟨hlt, -⟩ := List.getElem?_eq_some_iff.1 hraw
    exact ⟨⟨place, hplace, _, sign, List.getElem?_set_self hlt, hsign, hbehind⟩,
      ofFields_eq_ok_iff.2 hholds⟩

/-- Also behind another decoration. -/
theorem signs_dropped_wrapped_five :
    ∃ s, ofFields ["component_tdx_2_1val", "Neutral Validator", "Decimal(\"5\")", "340u64", "0",
          "100 NAR"] = .ok s ∧
      ofFields ["component_tdx_2_1val", "Neutral Validator", "Decimal(\"-5\")", "340u64", "0",
          "100 NAR"] = .ok s ∧ s.unstaking.atto = 5 * Amount.unit := by
  have hunstaking : HoldsAmount "Decimal(\"5\")" ⟨5 * Amount.unit, by decide⟩ :=
    ⟨['5'], ⟨"Decimal(\"".toList, ['"', ')'], by decide, by decide, by decide⟩, .whole (by decide)⟩
  have hstaked : HoldsAmount "100 NAR" ⟨100 * Amount.unit, by decide⟩ :=
    ⟨['1', '0', '0'], ⟨[], " NAR".toList, by decide, by decide, by decide⟩, .whole (by decide)⟩
  have hok := ofFields_of_holds hunstaking hstaked
  have hsign : signed '-' "Decimal(\"5\")" = "Decimal(\"-5\")" := by decide
  obtain ⟨-, hsigned, -⟩ := signs_dropped
    ["component_tdx_2_1val", "Neutral Validator", "Decimal(\"5\")", "340u64", "0", "100 NAR"]
  have hbehind := (hsigned _ '-' 2 _ hok (Or.inl rfl) (by decide) rfl).2
  rw [hsign] at hbehind
  exact ⟨_, hok, hbehind, rfl⟩

/-- A negative number and one without a whole part are read as five. -/
theorem signed_numbers_accepted :
    ∃ s, ofFields ["component_tdx_2_1val", "Neutral Validator", "Decimal(\"-5\")", "340u64", "0",
          ".5 XRD"] = .ok s ∧
      s.unstaking.atto = 5 * Amount.unit ∧ BehindSign '-' "Decimal(\"-5\")" ∧
      s.staked.atto = 5 * Amount.unit ∧ BehindSign '.' ".5 XRD" := by
  have hunstaking : HoldsAmount "Decimal(\"-5\")" ⟨5 * Amount.unit, by decide⟩ :=
    ⟨['5'], ⟨"Decimal(\"-".toList, ['"', ')'], by decide, by decide, by decide⟩,
      .whole (by decide)⟩
  have hstaked : HoldsAmount ".5 XRD" ⟨5 * Amount.unit, by decide⟩ :=
    ⟨['5'], ⟨['.'], " XRD".toList, by decide, by decide, by decide⟩, .whole (by decide)⟩
  exact ⟨_, ofFields_of_holds hunstaking hstaked, rfl,
    ⟨"Decimal(\"".toList, '5', ['"', ')'], by decide, by decide, by decide⟩, rfl,
    ⟨[], '5', " XRD".toList, by decide, by decide, by decide⟩⟩

end StakerInfo

end LedgerClient
