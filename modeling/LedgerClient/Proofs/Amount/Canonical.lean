/-
  The canonical text of an amount.

  * `Places n w f` says that a whole part `w` and eighteen places `f` come to `n` units;
  * `exists_places_charsOf` and `Canonical.exists_places`: the text of a count of units, and
    every canonical text that denotes it, is assembled from such parts, which are determined
    by the count (`Places.unique`);
  * `text_is_canonical`: the text of an amount is its only canonical text, and is read back.
-/
import LedgerClient.Proofs.Amount.Notation

namespace LedgerClient.Amount

open Text

/-- A whole part and eighteen places that come to so many units. -/
structure Places (n : Nat) (w f : List Char) : Prop where
  whole : IsShortNumeral w
  digits : ∀ c ∈ f, isDigit c
  length : f.length = places
  value : valueOf w * unit + valueOf f = n

variable {w f w' f' cs : List Char} {n : Nat}

/-! ## Zeros at the end -/

/-- Behind the zeros dropped from places a digit is left that is none, if any. -/
theorem exists_zeros (f : List Char) :
    ∃ g k, f = g ++ List.replicate k '0' ∧ g.getLast? ≠ some '0' := by
  obtain ⟨zeros, hzeros, hf⟩ := exists_dropEndWhile_append (· == '0') f
  refine ⟨dropEndWhile (· == '0') f, zeros.length, ?_, fun hlast => ?_⟩
  · rwa [← List.eq_replicate_length.2 fun c hc => by simpa using hzeros c hc]
  · have := getLast?_dropEndWhile hlast
    simp at this

theorem valueOf_append_zeros (g : List Char) (k : Nat) :
    valueOf (g ++ List.replicate k '0') = valueOf g * tenTo k := by
  rw [valueOf_append, valueOf_replicate_zero, List.length_replicate, Nat.add_zero]

/-- What is assembled shows the places up to the last that is no zero. -/
theorem assemble_append_zeros {g : List Char} (hg : g.getLast? ≠ some '0') (k : Nat) :
    assemble w (g ++ List.replicate k '0') = if g = [] then w else w ++ '.' :: g := by
  have hdrop : dropEndWhile (· == '0') (g ++ List.replicate k '0') = g := by
    rw [dropEndWhile_append_of_pos g fun y hy => by simp [List.eq_of_mem_replicate hy],
      dropEndWhile_eq_self]
    intro y hy
    rw [hy] at hg
    simpa using hg
  rw [assemble, hdrop]
  cases g <;> rfl

/-! ## Parts -/

namespace Places

/-- The places count less than a whole. -/
theorem value_lt (h : Places n w f) : valueOf f < unit := by
  have := valueOf_lt h.digits
  rwa [h.length] at this

/-- The parts are the quotient and the remainder by a whole. -/
theorem value_eq (h : Places n w f) : valueOf w = n / unit ∧ valueOf f = n % unit := by
  rw [← h.value, Nat.mul_comm]
  constructor
  · rw [Nat.mul_add_div unit_pos, Nat.div_eq_of_lt h.value_lt, Nat.add_zero]
  · rw [Nat.mul_add_mod, Nat.mod_eq_of_lt h.value_lt]

/-- **The count of units determines the parts.** -/
theorem unique (h : Places n w f) (h' : Places n w' f') : w = w' ∧ f = f' := by
  constructor
  · rw [← digits_valueOf h.whole, h.value_eq.1, ← h'.value_eq.1, digits_valueOf h'.whole]
  · exact eq_of_valueOf_eq h.digits h'.digits (h.length.trans h'.length.symm)
      (h.value_eq.2.trans h'.value_eq.2.symm)

/-- What is assembled from the parts denotes their count of units, without superfluous zeros. -/
theorem denotes_assemble (h : Places n w f) :
    Denotes (assemble w f) n ∧ Canonical (assemble w f) := by
  obtain ⟨g, k, rfl, hg⟩ := exists_zeros f
  have hvalue := h.value
  rw [valueOf_append_zeros] at hvalue
  rw [assemble_append_zeros hg]
  by_cases hnil : g = []
  · subst hnil
    rw [if_pos rfl, ← hvalue]
    simpa [valueOf, valueFrom] using ⟨Denotes.whole h.whole.1, Canonical.whole h.whole⟩
  · have hlength := h.length
    rw [List.length_append, List.length_replicate] at hlength
    have hnumeral : IsNumeral g := ⟨hnil, fun c hc => h.digits c (List.mem_append_left _ hc)⟩
    have hk : k = places - g.length := by omega
    rw [if_neg hnil, ← hvalue, hk]
    exact ⟨.point h.whole.1 hnumeral (by omega), .point h.whole hnumeral (by omega) hg⟩

end Places

/-- A canonical text is assembled from parts. -/
theorem Canonical.exists_places (hc : Canonical cs) (hn : Denotes cs n) :
    ∃ w f, Places n w f ∧ cs = assemble w f := by
  -- The places are the fraction with zeros behind it, up to eighteen.
  cases hc with
  | whole hw =>
    refine ⟨cs, List.replicate places '0', ⟨hw, forall_mem_zeros _, ?_, ?_⟩, ?_⟩
    · exact List.length_replicate
    · rw [valueOf_replicate_zero, Nat.add_zero]
      exact (Denotes.whole hw.1).unique hn
    · exact (assemble_append_zeros (g := []) (by simp) places).symm
  | @point w f hw hf hlength hlast =>
    refine ⟨w, f ++ List.replicate (places - f.length) '0', ⟨hw, ?_, ?_, ?_⟩, ?_⟩
    · exact List.forall_mem_append.2 ⟨hf.2, forall_mem_zeros _⟩
    · rw [List.length_append, List.length_replicate]
      omega
    · rw [valueOf_append_zeros]
      exact (Denotes.point hw.1 hf hlength).unique hn
    · rw [assemble_append_zeros hlast, if_neg hf.1]

/-- The text of a count of units is assembled from parts. -/
theorem exists_places_charsOf (n : Nat) : ∃ w f, Places n w f ∧ charsOf n = assemble w f := by
  obtain ⟨w, f, hpad, hw, hf, hlength, hvalue⟩ := exists_split_padLeft places n
  refine ⟨w, f, ⟨hw, hf, hlength, hvalue⟩, ?_⟩
  have hcut : (w ++ f).length - places = w.length := by
    rw [List.length_append, hlength, Nat.add_sub_cancel]
  simp only [charsOf, hpad, hcut, List.take_left, List.drop_left]

/-! ## Texts -/

/-- **Nothing but the text of a count of units denotes it canonically.** -/
theorem canonical_iff {cs : List Char} {n : Nat} :
    Canonical cs ∧ Denotes cs n ↔ cs = charsOf n := by
  obtain ⟨w, f, hparts, htext⟩ := exists_places_charsOf n
  constructor
  · rintro ⟨hc, hn⟩
    obtain ⟨w', f', hparts', rfl⟩ := hc.exists_places hn
    obtain ⟨rfl, rfl⟩ := hparts.unique hparts'
    exact htext.symm
  · rintro rfl
    rw [htext]
    exact hparts.denotes_assemble.symm

/-- A canonical text is the text of the amount that it denotes. -/
theorem text_of_canonical {a : Amount} {s : String} (hcanonical : Canonical s.toList)
    (hdenotes : Denotes s.toList a.atto) : a.text = s := by
  rw [text, textOf, ← canonical_iff.1 ⟨hcanonical, hdenotes⟩, String.ofList_toList]

/-- The text of an amount denotes it. -/
theorem denotes_text (a : Amount) : Denotes a.text.toList a.atto := by
  rw [text, textOf, String.toList_ofList]
  exact (canonical_iff.2 rfl).2

/-- Digits that do not end with a zero stand for another number than zero. -/
theorem valueOf_ne_zero {g : List Char} (hne : g ≠ []) (hdigit : ∀ c ∈ g, isDigit c)
    (hlast : g.getLast? ≠ some '0') : valueOf g ≠ 0 := by
  intro h0
  have hzeros : g = List.replicate g.length '0' :=
    eq_of_valueOf_eq hdigit (forall_mem_zeros _) List.length_replicate.symm
      (h0.trans (valueOf_replicate_zero _).symm)
  rw [hzeros, List.getLast?_replicate, if_neg (mt List.eq_nil_of_length_eq_zero hne)] at hlast
  exact hlast rfl

/-- A point is shown exactly where the count is no number of wholes. -/
theorem point_mem_charsOf (n : Nat) : '.' ∈ charsOf n ↔ n % unit ≠ 0 := by
  obtain ⟨w, f, hparts, htext⟩ := exists_places_charsOf n
  obtain ⟨g, k, rfl, hg⟩ := exists_zeros f
  rw [htext, assemble_append_zeros hg, ← hparts.value_eq.2, valueOf_append_zeros]
  by_cases hnil : g = []
  · simp [hnil, hparts.whole.1.point_not_mem, valueOf, valueFrom]
  · have hdigit : ∀ c ∈ g, isDigit c := fun c hc => hparts.digits c (List.mem_append_left _ hc)
    have hvalue := Nat.mul_ne_zero (valueOf_ne_zero hnil hdigit hg) (tenTo_pos k).ne'
    simp [hnil, hvalue]

/-- The text of an amount is read back. -/
theorem parse_text (a : Amount) : parse a.text = .ok a := by
  rw [parse_eq_ok_iff, trimChars_eq_self (denotes_text a).digitEnds]
  exact denotes_text a

/-- **The text of an amount is a lossless canonical form.** It is read back, and it is the only
    text without superfluous zeros of every text that is read as the amount; so two texts print
    alike exactly where they denote the same number. -/
theorem text_is_canonical :
    (∀ a : Amount, parse a.text = .ok a) ∧
    (∀ a : Amount, Canonical a.text.toList ∧ Denotes a.text.toList a.atto ∧
      ('.' ∈ a.text.toList ↔ a.atto % unit ≠ 0)) ∧
    (∀ (s : String) (a : Amount), parse s = .ok a → ∀ cs : List Char,
      (Canonical cs ∧ ∃ n, Denotes (trimChars s.toList) n ∧ Denotes cs n) ↔ cs = a.text.toList) ∧
    ∀ (s t : String) (a b : Amount), parse s = .ok a → parse t = .ok b →
      (a.text = b.text ↔ ∃ n, Denotes (trimChars s.toList) n ∧ Denotes (trimChars t.toList) n) := by
  have hchars : ∀ a : Amount, a.text.toList = charsOf a.atto := fun a => String.toList_ofList
  refine ⟨parse_text, fun a => ?_, fun s a hs cs => ?_, fun s t a b hs ht => ?_⟩
  · obtain ⟨hcanonical, hdenotes⟩ := canonical_iff.2 (hchars a)
    exact ⟨hcanonical, hdenotes, hchars a ▸ point_mem_charsOf a.atto⟩
  · rw [hchars, ← canonical_iff]
    have hs := parse_eq_ok_iff.1 hs
    refine and_congr_right fun _ => ⟨?_, fun h => ⟨_, hs, h⟩⟩
    rintro ⟨n, hn, hcs⟩
    rwa [hs.unique hn]
  · have hs := parse_eq_ok_iff.1 hs
    have ht := parse_eq_ok_iff.1 ht
    constructor
    · intro htext
      have hab : a = b := by
        have := parse_text a
        rw [htext, parse_text] at this
        exact (Except.ok.inj this).symm
      exact ⟨_, hs, hab ▸ ht⟩
    · rintro ⟨n, hn, hn'⟩
      rw [Amount.ext ((hs.unique hn).trans (ht.unique hn').symm)]

/-- Zeros at both ends are not printed. -/
theorem text_is_canonical_superfluous_zeros :
    ∃ a, parse "007.250" = .ok a ∧ a.text = "7.25" := by
  have hnumeral : ∀ cs : List Char, cs ≠ [] → cs.all isDigit → IsNumeral cs := fun cs hne hall =>
    ⟨hne, List.all_eq_true.1 hall⟩
  have htrim : trimChars "007.250".toList = ['0', '0', '7'] ++ '.' :: ['2', '5', '0'] := by decide
  have hdenotes : Denotes (trimChars "007.250".toList) (725 * tenTo 16) :=
    htrim ▸ .point (hnumeral _ (by decide) rfl) (hnumeral _ (by decide) rfl) (by decide)
  have hshort : Denotes (['7'] ++ '.' :: ['2', '5']) (725 * tenTo 16) :=
    .point (hnumeral _ (by decide) rfl) (hnumeral _ (by decide) rfl) (by decide)
  have hcanonical : Canonical (['7'] ++ '.' :: ['2', '5']) :=
    .point ⟨hnumeral _ (by decide) rfl, by decide⟩ (hnumeral _ (by decide) rfl) (by decide)
      (by decide)
  have hparse : parse "007.250" = .ok ⟨725 * tenTo 16, by decide⟩ := parse_eq_ok_iff.2 hdenotes
  obtain ⟨-, -, hunique, -⟩ := text_is_canonical
  have htext := (hunique _ _ hparse _).1 ⟨hcanonical, _, hdenotes, hshort⟩
  exact ⟨_, hparse, String.toList_inj.1 htext.symm⟩

end LedgerClient.Amount
