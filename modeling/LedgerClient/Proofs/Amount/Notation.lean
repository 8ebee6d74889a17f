/-
  Amounts in plain notation.

  * `Denotes cs n`: the text `cs` is a number in plain notation, with at most
    eighteen places, and stands for `n` units; `Canonical cs`: no zero in it is
    superfluous;
  * `Overlong cs`: but for the script of its digits the text is such a number, and its fraction has
    too many bytes to be filled up. Reading it stops the program (`Overruns`);
  * `ofChars_eq_ok_iff`: what is read is exactly what is denoted, in range.
    Digits of other scripts, long words and zeros in front make no difference;
  * `parse_reads_notation` says so of texts as they are given.
-/
import LedgerClient.Amount
import LedgerClient.Proofs.Scan
import LedgerClient.Proofs.Text.Decoration

namespace LedgerClient.Amount

open Text

/-! ## Notation -/

/-- The text is a number in plain notation and stands for so many units. -/
inductive Denotes : List Char → Nat → Prop
  | whole {w : List Char} : IsNumeral w → Denotes w (valueOf w * unit)
  | point {w f : List Char} : IsNumeral w → IsNumeral f → f.length ≤ places →
      Denotes (w ++ '.' :: f) (valueOf w * unit + valueOf f * tenTo (places - f.length))

/-- The text is a number in plain notation without superfluous zeros: none in front of others
    before the point, and none at the end behind it. -/
inductive Canonical : List Char → Prop
  | whole {w : List Char} : IsShortNumeral w → Canonical w
  | point {w f : List Char} : IsShortNumeral w → IsNumeral f → f.length ≤ places →
      f.getLast? ≠ some '0' → Canonical (w ++ '.' :: f)

/-- The text is written as a number in plain notation with digits of any script, and the places of
    its fraction, though not too many, take more bytes than an amount has places. -/
inductive Overlong : List Char → Prop
  | point {w f : List Char} : w ≠ [] → (∀ c ∈ w, isDecimalDigit c) →
      (∀ c ∈ f, isDecimalDigit c) → f.length ≤ places → places < byteLength f →
      Overlong (w ++ '.' :: f)

/-- Reading the text stops the program. -/
def Overruns (input : String) : Prop :=
  Overlong (trimChars input.toList)

/-! ## Parts -/

theorem parts?_eq_some_iff {cs w f : List Char} :
    parts? cs = some (w, f) ↔
      (w ≠ [] ∧ ∀ c ∈ w, isDecimalDigit c) ∧
        (f = [] ∧ cs = w ∨
          (f ≠ [] ∧ ∀ c ∈ f, isDecimalDigit c) ∧ f.length ≤ places ∧ cs = w ++ '.' :: f) := by
  constructor
  · intro h
    have hcs := (List.takeWhile_append_dropWhile (p := isDecimalDigit) (l := cs)).symm
    have hw := List.all_eq_true.1 (List.all_takeWhile (p := isDecimalDigit) (l := cs))
    simp only [parts?] at h
    split at h
    · cases h
    · rename_i hne
      rw [List.isEmpty_iff] at hne
      split at h
      · rename_i hd
        obtain ⟨rfl, rfl⟩ := by simpa using h
        rw [hd, List.append_nil] at hcs
        exact ⟨⟨hne, hw⟩, Or.inl ⟨rfl, hcs⟩⟩
      · rename_i fraction hd
        split at h
        · rename_i hf
          obtain ⟨rfl, rfl⟩ := by simpa using h
          simp only [Bool.and_eq_true, Bool.not_eq_true', List.isEmpty_eq_false_iff,
            List.all_eq_true, decide_eq_true_eq] at hf
          rw [hd] at hcs
          exact ⟨⟨hne, hw⟩, Or.inr ⟨hf.1, hf.2, hcs⟩⟩
        · cases h
      · cases h
  · rintro ⟨⟨hne, hw⟩, ⟨rfl, rfl⟩ | ⟨⟨hfne, hf⟩, hlength, rfl⟩⟩
    · have htake : cs.takeWhile isDecimalDigit = cs := List.takeWhile_eq_self_iff.2 hw
      have hdrop : cs.dropWhile isDecimalDigit = [] := List.dropWhile_eq_nil_iff.2 hw
      simp [parts?, htake, hdrop, hne]
    · have htake : (w ++ '.' :: f).takeWhile isDecimalDigit = w := by
        rw [List.takeWhile_append_of_pos hw, List.takeWhile_cons_of_neg (by decide),
          List.append_nil]
      have hdrop : (w ++ '.' :: f).dropWhile isDecimalDigit = '.' :: f := by
        rw [List.dropWhile_append_of_pos hw, List.dropWhile_cons_of_neg (by decide)]
      have hfit : (!f.isEmpty && f.all isDecimalDigit && decide (f.length ≤ places)) = true := by
        simpa [hfne, hlength] using hf
      simp [parts?, htake, hdrop, hne, hfit]

/-- Digits in front of a number become a part of its whole part. -/
theorem parts?_append {z cs : List Char} (hz : ∀ c ∈ z, isDecimalDigit c)
    (hcs : ∃ c rest, cs = c :: rest ∧ isDecimalDigit c) :
    parts? (z ++ cs) = (parts? cs).map fun p => (z ++ p.1, p.2) := by
  obtain ⟨c, rest, rfl, hc⟩ := hcs
  have htake : ((c :: rest).takeWhile isDecimalDigit).isEmpty = false := by simp [hc]
  have happend : (z ++ (c :: rest).takeWhile isDecimalDigit).isEmpty = false := by simp [hc]
  simp only [parts?, List.takeWhile_append_of_pos hz, List.dropWhile_append_of_pos hz, htake,
    happend, Bool.false_eq_true, if_false]
  split
  · rfl
  · split <;> rfl
  · rfl

/-- Whether a text is overlong is told by its fraction. -/
theorem overlong_iff {cs : List Char} :
    Overlong cs ↔ ∃ w f, parts? cs = some (w, f) ∧ places < byteLength f := by
  constructor
  · rintro ⟨hne, hw, hf, hlength, hlong⟩
    rename_i w f
    have hfne : f ≠ [] := by
      rintro rfl
      exact absurd hlong (by decide)
    exact ⟨w, f, parts?_eq_some_iff.2 ⟨⟨hne, hw⟩, Or.inr ⟨⟨hfne, hf⟩, hlength, rfl⟩⟩, hlong⟩
  · rintro ⟨w, f, hparts, hlong⟩
    obtain ⟨⟨hne, hw⟩, ⟨rfl, -⟩ | ⟨⟨-, hf⟩, hlength, rfl⟩⟩ := parts?_eq_some_iff.1 hparts
    · exact absurd hlong (by decide)
    · exact .point hne hw hf hlength hlong

/-- Only digits of other scripts make a text overlong: those of a numeral have one byte each. -/
theorem not_overlong {cs : List Char} (h : ∀ c ∈ cs, isDecimalDigit c → isDigit c) :
    ¬Overlong cs := by
  rintro ⟨-, -, hf, hlength, hlong⟩
  rename_i w f
  have hdigit : ∀ c ∈ f, isDigit c := fun c hc => h c (by simp [hc]) (hf c hc)
  rw [byteLength_of_isDigit hdigit] at hlong
  exact Nat.not_lt.2 hlength hlong

theorem not_overlong_point {w f : List Char} (hw : ∀ c ∈ w, isDigit c) (hf : ∀ c ∈ f, isDigit c) :
    ¬Overlong (w ++ '.' :: f) := by
  refine not_overlong fun c hc hdecimal => ?_
  rcases List.mem_append.1 hc with hc | hc
  · exact hw c hc
  rcases List.mem_cons.1 hc with rfl | hc
  · exact absurd hdecimal (by decide)
  · exact hf c hc

/-! ## Units -/

theorem ofAtto?_eq_some_iff {n : Nat} {a : Amount} : ofAtto? n = some a ↔ a.atto = n := by
  unfold ofAtto?
  split
  · rw [Option.some.injEq, Amount.ext_iff]
    exact eq_comm
  · rename_i h
    exact ⟨fun h' => by simp at h', fun h' => absurd (h' ▸ a.atto_lt) h⟩

/-- Digits are read as the amount of so many units. The word that they are read into is wider
    than every amount. -/
theorem ofDigits?_eq_some_iff {ds : List Char} {a : Amount} :
    ofDigits? ds = some a ↔ (∀ c ∈ ds, isDigit c) ∧ valueOf ds = a.atto := by
  have hwide : a.atto < twoTo 256 := Nat.lt_trans a.atto_lt (by decide)
  unfold ofDigits?
  split
  · rename_i h
    rw [List.isEmpty_iff.1 h, Option.some.injEq, Amount.ext_iff]
    simp [zero, valueOf, valueFrom]
  · simp only [Option.bind_eq_some_iff, valueBelow?_eq_some_iff (twoTo_pos 256),
      ofAtto?_eq_some_iff]
    constructor
    · rintro ⟨n, ⟨hdigit, hvalue, -⟩, rfl⟩
      exact ⟨hdigit, hvalue⟩
    · rintro ⟨hdigit, hvalue⟩
      exact ⟨a.atto, ⟨hdigit, hvalue, hwide⟩, rfl⟩

variable {w f ds : List Char}

theorem unitDigits_eq_ok_iff :
    unitDigits w f = .ok ds ↔ byteLength f ≤ places ∧
      (w ++ f ++ List.replicate (places - byteLength f) '0').dropWhile (· == '0') = ds := by
  rw [unitDigits, padding]
  by_cases h : byteLength f ≤ places
  · rw [if_pos h, and_iff_right h]
    exact ⟨Except.ok.inj, congrArg Except.ok⟩
  · rw [if_neg h]
    exact iff_of_false nofun fun h' => h h'.1

/-- A fraction with more bytes than there are places cannot be filled up. -/
theorem unitDigits_of_lt (h : places < byteLength f) : unitDigits w f = .error overrun := by
  rw [unitDigits, padding, if_neg (Nat.not_le.2 h)]
  rfl

/-- The zeros that are put behind and left out in front are digits themselves. -/
theorem forall_mem_unitDigits (h : unitDigits w f = .ok ds) :
    (∀ c ∈ ds, isDigit c) ↔ (∀ c ∈ w, isDigit c) ∧ ∀ c ∈ f, isDigit c := by
  have hdrop : ∀ cs : List Char,
      (∀ c ∈ cs.dropWhile (· == '0'), isDigit c) ↔ ∀ c ∈ cs, isDigit c := by
    intro cs
    induction cs with
    | nil => simp
    | cons c cs ih =>
      by_cases hc : c = '0'
      · subst hc
        rw [List.dropWhile_cons_of_pos (by decide), ih, List.forall_mem_cons]
        exact (and_iff_right (by decide)).symm
      · rw [List.dropWhile_cons_of_neg (by simpa using hc)]
  obtain ⟨-, rfl⟩ := unitDigits_eq_ok_iff.1 h
  rw [hdrop, List.forall_mem_append, List.forall_mem_append]
  exact and_iff_left (forall_mem_zeros _)

theorem unit_pos : 0 < unit := tenTo_pos places

theorem unit_eq (h : f.length ≤ places) : unit = tenTo f.length * tenTo (places - f.length) := by
  rw [← tenTo_add, Nat.add_sub_cancel' h, unit]

/-- The digits stand for the count of units that both parts come to. -/
theorem valueOf_unitDigits (h : unitDigits w f = .ok ds) (hf : ∀ c ∈ f, isDigit c) :
    valueOf ds = valueOf w * unit + valueOf f * tenTo (places - f.length) := by
  obtain ⟨hlength, rfl⟩ := unitDigits_eq_ok_iff.1 h
  rw [byteLength_of_isDigit hf] at hlength ⊢
  rw [valueOf_dropWhile_zero, valueOf_append, valueOf_replicate_zero, List.length_replicate,
    valueOf_append, unit_eq hlength]
  ring

/-- Zeros in front of the whole part make no difference. -/
theorem unitDigits_zeros_append (k : Nat) :
    unitDigits (List.replicate k '0' ++ w) f = unitDigits w f := by
  have hzeros : ∀ c ∈ List.replicate k '0', (c == '0') = true := by
    intro c hc
    rw [List.eq_of_mem_replicate hc]
    rfl
  simp only [unitDigits, List.append_assoc, List.dropWhile_append_of_pos hzeros]

/-! ## Reading -/

/-- What a text denotes is told by its parts. -/
theorem denotes_iff {cs : List Char} {n : Nat} :
    Denotes cs n ↔ ∃ w f, parts? cs = some (w, f) ∧ ((∀ c ∈ w, isDigit c) ∧ ∀ c ∈ f, isDigit c) ∧
      valueOf w * unit + valueOf f * tenTo (places - f.length) = n := by
  constructor
  · rintro (⟨hne, hw⟩ | ⟨⟨hne, hw⟩, ⟨hfne, hf⟩, hlength⟩)
    · have hparts := parts?_eq_some_iff.2
        ⟨⟨hne, fun c hc => isDecimalDigit_of_isDigit (hw c hc)⟩, Or.inl ⟨rfl, rfl⟩⟩
      exact ⟨cs, [], hparts, ⟨hw, by simp⟩, by simp [valueOf, valueFrom]⟩
    · rename_i w f
      have hparts := parts?_eq_some_iff.2
        ⟨⟨hne, fun c hc => isDecimalDigit_of_isDigit (hw c hc)⟩,
          Or.inr ⟨⟨hfne, fun c hc => isDecimalDigit_of_isDigit (hf c hc)⟩, hlength, rfl⟩⟩
      exact ⟨w, f, hparts, ⟨hw, hf⟩, rfl⟩
  · rintro ⟨w, f, hparts, ⟨hw, hf⟩, rfl⟩
    obtain ⟨⟨hne, -⟩, ⟨rfl, rfl⟩ | ⟨⟨hfne, -⟩, hlength, rfl⟩⟩ := parts?_eq_some_iff.1 hparts
    · simpa [valueOf, valueFrom] using Denotes.whole ⟨hne, hw⟩
    · exact .point ⟨hne, hw⟩ ⟨hfne, hf⟩ hlength

/-- A text denotes at most one number. -/
theorem Denotes.unique {cs : List Char} {m n : Nat} (hm : Denotes cs m) (hn : Denotes cs n) :
    m = n := by
  obtain ⟨w, f, hparts, -, rfl⟩ := denotes_iff.1 hm
  obtain ⟨w', f', hparts', -, rfl⟩ := denotes_iff.1 hn
  obtain ⟨rfl, rfl⟩ : w = w' ∧ f = f' := by simpa using hparts.symm.trans hparts'
  rfl

theorem Denotes.ne_nil {cs : List Char} {n : Nat} (h : Denotes cs n) : cs ≠ [] := by
  cases h with
  | whole hw => exact hw.1
  | point _ _ _ => simp

/-- A number in plain notation begins and ends with a digit. -/
theorem Denotes.digitEnds {cs : List Char} {n : Nat} (h : Denotes cs n) : DigitEnds cs := by
  cases h with
  | whole hw => exact digitEnds_of_isNumeral hw
  | point hw hf _ => exact digitEnds_point hw hf

/-- What denotes a number is not overlong. -/
theorem Denotes.not_overlong {cs : List Char} {n : Nat} (h : Denotes cs n) : ¬Overlong cs := by
  cases h with
  | whole hw => exact Amount.not_overlong fun c hc _ => hw.2 c hc
  | point hw hf _ => exact not_overlong_point hw.2 hf.2

variable {invalid fault : Fault} {cs : List Char}

theorem ofChars_of_overlong (h : Overlong cs) : ofChars invalid cs = .error overrun := by
  obtain ⟨w, f, hparts, hlong⟩ := overlong_iff.1 h
  simp only [ofChars, hparts, unitDigits_of_lt hlong]
  rfl

/-- A text that is not overlong is read digit by digit. -/
theorem ofChars_of_not_overlong (invalid : Fault) {w f : List Char}
    (hparts : parts? cs = some (w, f)) (h : ¬Overlong cs) : ∃ ds, unitDigits w f = .ok ds ∧
      ofChars invalid cs = (ofDigits? ds).elim (.error invalid) .ok := by
  have hfits : byteLength f ≤ places :=
    Nat.not_lt.1 fun hlong => h (overlong_iff.2 ⟨w, f, hparts, hlong⟩)
  have hds := (unitDigits_eq_ok_iff (w := w)).2 ⟨hfits, rfl⟩
  refine ⟨_, hds, ?_⟩
  simp only [ofChars, hparts, hds, bind, Except.bind]
  cases ofDigits? _ <;> rfl

/-- **What is read is exactly what is denoted.** -/
theorem ofChars_eq_ok_iff {a : Amount} : ofChars invalid cs = .ok a ↔ Denotes cs a.atto := by
  by_cases hlong : Overlong cs
  · rw [ofChars_of_overlong hlong]
    exact iff_of_false nofun fun h => h.not_overlong hlong
  rw [denotes_iff]
  cases hparts : parts? cs with
  | none => simp [ofChars, hparts]
  | some p =>
    obtain ⟨w, f⟩ := p
    obtain ⟨ds, hds, hread⟩ := ofChars_of_not_overlong invalid hparts hlong
    have hvalue : ofChars invalid cs = .ok a ↔ (∀ c ∈ ds, isDigit c) ∧ valueOf ds = a.atto := by
      rw [hread, ← ofDigits?_eq_some_iff]
      cases ofDigits? ds <;> simp
    rw [hvalue, forall_mem_unitDigits hds]
    constructor
    · rintro ⟨hdigits, hatto⟩
      exact ⟨w, f, rfl, hdigits, by rw [← hatto, valueOf_unitDigits hds hdigits.2]⟩
    · rintro ⟨w', f', hparts', hdigits, hatto⟩
      obtain ⟨rfl, rfl⟩ : w = w' ∧ f = f' := by simpa using hparts'
      exact ⟨hdigits, by rw [← hatto, valueOf_unitDigits hds hdigits.2]⟩

theorem ofChars_eq_error (hlong : ¬Overlong cs) (h : ofChars invalid cs = .error fault) :
    fault = invalid := by
  cases hparts : parts? cs with
  | none =>
    simp only [ofChars, hparts] at h
    exact (Except.error.inj h).symm
  | some p =>
    obtain ⟨ds, -, hread⟩ := ofChars_of_not_overlong invalid hparts hlong
    rw [hread] at h
    cases hvalue : ofDigits? ds with
    | none =>
      rw [hvalue] at h
      exact (Except.error.inj h).symm
    | some a =>
      rw [hvalue] at h
      cases h

/-- What denotes no number in range is told to be invalid. -/
theorem ofChars_eq_error_iff (hlong : ¬Overlong cs) :
    ofChars invalid cs = .error fault ↔
      fault = invalid ∧ ¬∃ n, Denotes cs n ∧ n < twoTo 191 := by
  constructor
  · intro h
    refine ⟨ofChars_eq_error hlong h, ?_⟩
    rintro ⟨n, hn, hlt⟩
    have hok : ofChars invalid cs = .ok ⟨n, hlt⟩ := ofChars_eq_ok_iff.2 hn
    rw [h] at hok
    cases hok
  · rintro ⟨rfl, hnone⟩
    cases hresult : ofChars fault cs with
    | ok a => exact absurd ⟨a.atto, ofChars_eq_ok_iff.1 hresult, a.atto_lt⟩ hnone
    | error e => rw [ofChars_eq_error hlong hresult]

/-- What is told where there is no amount makes no difference to the amounts. -/
theorem toOption_ofChars (invalid invalid' : Fault) (cs : List Char) :
    (ofChars invalid cs).toOption = (ofChars invalid' cs).toOption := by
  have hsome : ∀ (fault : Fault) (a : Amount),
      (ofChars fault cs).toOption = some a ↔ Denotes cs a.atto := by
    intro fault a
    rw [← ofChars_eq_ok_iff]
    cases ofChars fault cs <;> simp [Except.toOption]
  exact Option.ext fun a => (hsome invalid a).trans (hsome invalid' a).symm

/-- Zeros in front of a number make no difference, however many. -/
theorem ofChars_zeros_append (k : Nat) (h : ∃ c rest, cs = c :: rest ∧ isDecimalDigit c) :
    ofChars invalid (List.replicate k '0' ++ cs) = ofChars invalid cs := by
  have hzeros : ∀ c ∈ List.replicate k '0', isDecimalDigit c := fun c hc =>
    isDecimalDigit_of_isDigit (forall_mem_zeros k c hc)
  simp only [ofChars, parts?_append hzeros h]
  cases parts? cs with
  | none => rfl
  | some p => simp only [Option.map_some, unitDigits_zeros_append]

/-! ## Amounts from texts -/

section Texts

variable {input : String} {told : Fault} {a : Amount}

theorem parse_eq_ok_iff : parse input = .ok a ↔ Denotes (trimChars input.toList) a.atto :=
  ofChars_eq_ok_iff

theorem parse_eq_error_iff (h : ¬Overruns input) :
    parse input = .error fault ↔
      fault = .invalidAmount input ∧
        ¬∃ n, Denotes (trimChars input.toList) n ∧ n < twoTo 191 :=
  ofChars_eq_error_iff h

theorem parse_of_overruns (h : Overruns input) : parse input = .error overrun :=
  ofChars_of_overlong h

/-- Another wording of the faults leaves the amounts as they are. -/
theorem parseOr_eq_ok_iff : parseOr told input = .ok a ↔ parse input = .ok a := by
  rw [parseOr]
  cases parse input <;> simp [Except.mapError]

/-- What is no amount is told in the reader's words. -/
theorem parseOr_yields (h : ¬Overruns input) :
    Yields (parseOr told input) (· = told) fun _ => True := by
  rw [parseOr]
  cases hparse : parse input with
  | ok a => trivial
  | error fault =>
    obtain rfl := ofChars_eq_error h hparse
    rfl

theorem parseOr_mayMismatch {field expected : String} {found : Wording} (h : ¬Overruns input) :
    MayMismatch (parseOr (.schemaMismatch field expected found) input) := by
  refine (parseOr_yields h).mono ?_ fun _ _ => trivial
  rintro fault rfl
  rfl

theorem parseOr_of_overruns (h : Overruns input) : parseOr told input = .error overrun := by
  rw [parseOr, parse_of_overruns h]
  rfl

end Texts

/-- What is blank in front of a digit is dropped, and nothing behind the digit moves in front. -/
theorem trimChars_append {blank : List Char} (hblank : ∀ b ∈ blank, isBlank b) {c : Char}
    (hc : isDecimalDigit c) (rest : List Char) :
    trimChars (blank ++ c :: rest) = dropEndWhile isBlank (c :: rest) := by
  rw [trimChars, dropEnds, List.dropWhile_append_of_pos hblank,
    dropWhile_cons_of_not rest (isBlank_of_isDecimalDigit hc)]

theorem ofChars_trimChars_zeros (k : Nat) {blank : List Char} (hblank : ∀ b ∈ blank, isBlank b)
    {c : Char} (hc : isDecimalDigit c) (rest : List Char) :
    ofChars invalid (trimChars (blank ++ List.replicate k '0' ++ c :: rest)) =
      ofChars invalid (trimChars (blank ++ c :: rest)) := by
  obtain ⟨rest', hrest'⟩ := dropEndWhile_cons_of_not rest (isBlank_of_isDecimalDigit hc)
  have hzeros : trimChars (blank ++ List.replicate k '0' ++ c :: rest) =
      List.replicate k '0' ++ c :: rest' := by
    rw [← hrest', ← dropEndWhile_append_of_not _ _ (isBlank_of_isDecimalDigit hc)]
    cases k with
    | zero => simpa using trimChars_append hblank hc rest
    | succ k =>
      rw [List.replicate_succ, List.append_assoc, List.cons_append]
      exact trimChars_append hblank (by decide) _
  rw [hzeros, trimChars_append hblank hc, hrest']
  exact ofChars_zeros_append k ⟨c, rest', rfl, hc⟩

/-- **Reading accepts exactly the plain notation and reads it exactly.** A text that is not
    accepted is quoted as it was given, and zeros in front make no difference. Reading an overlong
    text has no outcome; such a text denotes nothing. -/
theorem parse_reads_notation :
    (∀ input : String, ¬Overruns input →
      (∀ n : Nat, (∃ a, parse input = .ok a ∧ a.atto = n) ↔
        Denotes (trimChars input.toList) n ∧ n ≤ twoTo 191 - 1) ∧
      ∀ fault : Fault, parse input = .error fault ↔
        fault = .invalidAmount input ∧
          ¬∃ n, Denotes (trimChars input.toList) n ∧ n ≤ twoTo 191 - 1) ∧
    (∀ input : String, Overruns input →
      parse input = .error overrun ∧ ¬∃ n, Denotes (trimChars input.toList) n) ∧
    ∀ (k : Nat) (blank rest : List Char) (c : Char), (∀ b ∈ blank, isBlank b) → isDecimalDigit c →
      (parse (String.ofList (blank ++ List.replicate k '0' ++ c :: rest))).toOption =
        (parse (String.ofList (blank ++ c :: rest))).toOption := by
  have hle : ∀ n, n ≤ twoTo 191 - 1 ↔ n < twoTo 191 := fun n =>
    Nat.le_sub_one_iff_lt (twoTo_pos 191)
  refine ⟨fun input hfits => ⟨fun n => ?_, fun fault => ?_⟩,
    fun input hlong => ⟨parse_of_overruns hlong, fun ⟨n, hn⟩ => hn.not_overlong hlong⟩,
    fun k blank rest c hblank hc => ?_⟩
  · rw [hle]
    constructor
    · rintro ⟨a, ha, rfl⟩
      exact ⟨parse_eq_ok_iff.1 ha, a.atto_lt⟩
    · rintro ⟨hn, hlt⟩
      exact ⟨⟨n, hlt⟩, parse_eq_ok_iff.2 hn, rfl⟩
  · simp only [hle]
    exact parse_eq_error_iff hfits
  · rw [parse, parse, String.toList_ofList, String.toList_ofList,
      ofChars_trimChars_zeros k hblank hc]
    exact toOption_ofChars _ _ _

/-- Also behind a blank, with three hundred zeros. -/
theorem parse_reads_notation_many_zeros :
    (parse (String.ofList ([' '] ++ List.replicate 300 '0' ++ ['1', '.', '5']))).toOption =
        (parse (String.ofList ([' '] ++ ['1', '.', '5']))).toOption ∧
      ∃ a, parse (String.ofList ([' '] ++ ['1', '.', '5'])) = .ok a ∧ a.atto = 15 * tenTo 17 := by
  obtain ⟨hreads, -, hzeros⟩ := parse_reads_notation
  have htrim : trimChars [' ', '1', '.', '5'] = ['1'] ++ '.' :: ['5'] := by decide
  have hdigit : ∀ c : Char, isDigit c → IsNumeral [c] := fun c hc =>
    ⟨List.cons_ne_nil _ _, List.forall_mem_singleton.2 hc⟩
  have hdenotes : Denotes (['1'] ++ '.' :: ['5']) (15 * tenTo 17) :=
    .point (hdigit '1' rfl) (hdigit '5' rfl) (by decide)
  have hblank : ∀ b ∈ [' '], isBlank b := List.forall_mem_singleton.2 rfl
  have hinput : Denotes (trimChars (String.ofList ([' '] ++ ['1', '.', '5'])).toList)
      (15 * tenTo 17) := by
    rw [String.toList_ofList]
    exact htrim ▸ hdenotes
  obtain ⟨hread, -⟩ := hreads _ hinput.not_overlong
  exact ⟨hzeros 300 [' '] ['.', '5'] '1' hblank rfl, (hread _).2 ⟨hinput, by decide⟩⟩

end LedgerClient.Amount
