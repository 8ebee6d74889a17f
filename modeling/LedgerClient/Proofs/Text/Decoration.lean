/-
  Decorations: what stands around a number, without a digit of any script in it.

  * `Bare p ys`: neither end of `ys` satisfies `p`; `dropEnds_eq_iff` says what is left by
    dropping at both ends;
  * `Decorated n cs`: the text `cs` is `n` with decorations around it;
  * `stripDecorations_eq_iff`: what is stripped are the decorations, and all of them;
  * `trimChars_eq_self`: no digit is blank, so that nothing is trimmed from a text that begins and
    ends with one.
-/
import LedgerClient.Proofs.Text.Numeral
import Mathlib.Data.List.TakeWhile

namespace LedgerClient.Text

/-! ## Dropping at both ends -/

section Ends

variable {α : Type} {p q : α → Bool} {xs ys : List α}

/-- Neither the first nor the last member satisfies `p`. -/
structure Bare (p : α → Bool) (ys : List α) : Prop where
  head : ∀ y, ys.head? = some y → p y = false
  last : ∀ y, ys.getLast? = some y → p y = false

theorem Bare.mono (h : Bare p ys) (hpq : ∀ y, p y = false → q y = false) : Bare q ys :=
  ⟨fun y hy => hpq y (h.head y hy), fun y hy => hpq y (h.last y hy)⟩

theorem bare_of_forall (h : ∀ y ∈ ys, p y = false) : Bare p ys :=
  ⟨fun y hy => h y (List.mem_of_head? hy), fun y hy => h y (List.mem_of_getLast? hy)⟩

theorem dropEnds_append {as bs : List α} (has : ∀ a ∈ as, p a) (hbs : ∀ b ∈ bs, p b)
    (h : Bare p ys) : dropEnds p (as ++ ys ++ bs) = ys := by
  rw [dropEnds, List.append_assoc, List.dropWhile_append_of_pos has]
  cases ys with
  | nil => rw [List.nil_append, List.dropWhile_eq_nil_iff.2 hbs]; rfl
  | cons y ys =>
    rw [List.cons_append, dropWhile_cons_of_not _ (h.head y rfl), ← List.cons_append,
      dropEndWhile_append_of_pos _ hbs, dropEndWhile_eq_self h.last]

theorem bare_dropEnds (p : α → Bool) (xs : List α) : Bare p (dropEnds p xs) := by
  refine ⟨fun y hy => ?_, fun y hy => getLast?_dropEndWhile hy⟩
  rw [dropEnds] at hy
  have hnot := List.head?_dropWhile_not p xs
  cases hdrop : xs.dropWhile p with
  | nil =>
    rw [hdrop] at hy
    cases hy
  | cons x zs =>
    rw [hdrop] at hy hnot
    have hx : p x = false := by simpa using hnot
    obtain ⟨zs', hzs'⟩ := dropEndWhile_cons_of_not zs hx
    rw [hzs'] at hy
    exact Option.some.inj hy ▸ hx

/-- **What is left by dropping at both ends**: the part whose ends are not to be dropped, where
    all around it is. -/
theorem dropEnds_eq_iff : dropEnds p xs = ys ↔ Bare p ys ∧
    ∃ as bs, xs = as ++ ys ++ bs ∧ (∀ a ∈ as, p a) ∧ ∀ b ∈ bs, p b := by
  constructor
  · rintro rfl
    obtain ⟨bs, hbs, heq⟩ := exists_dropEndWhile_append p (xs.dropWhile p)
    refine ⟨bare_dropEnds p xs, xs.takeWhile p, bs, ?_, ?_, hbs⟩
    · rw [dropEnds, List.append_assoc, ← heq, List.takeWhile_append_dropWhile]
    · exact List.all_eq_true.1 List.all_takeWhile
  · rintro ⟨h, as, bs, rfl, has, hbs⟩
    exact dropEnds_append has hbs h

end Ends

/-! ## Decorations -/

/-- No digit of any script stands in the text. -/
def IsDecoration (cs : List Char) : Prop :=
  ∀ c ∈ cs, isDecimalDigit c = false

instance (cs : List Char) : Decidable (IsDecoration cs) :=
  decidable_of_iff (cs.all fun c => !isDecimalDigit c) (by simp [IsDecoration])

/-- The text is `n` with decorations in front and behind. -/
def Decorated (n cs : List Char) : Prop :=
  ∃ front back, cs = front ++ n ++ back ∧ IsDecoration front ∧ IsDecoration back

/-- Both ends of the text are digits, if it is not empty. -/
def DigitEnds (n : List Char) : Prop :=
  Bare (fun c => !isDecimalDigit c) n

theorem digitEnds_of_isNumeral {n : List Char} (h : IsNumeral n) : DigitEnds n :=
  bare_of_forall fun c hc => by simp [isDecimalDigit_of_isDigit (h.2 c hc)]

/-- A number with a point in it begins and ends with a digit, too. -/
theorem digitEnds_point {w f : List Char} (hw : IsNumeral w) (hf : IsNumeral f) :
    DigitEnds (w ++ '.' :: f) := by
  refine ⟨fun c hc => (digitEnds_of_isNumeral hw).head c ?_,
    fun c hc => (digitEnds_of_isNumeral hf).last c ?_⟩
  · rwa [List.head?_append_of_ne_nil _ hw.1] at hc
  · rwa [List.getLast?_append_cons, List.getLast?_cons_of_ne_nil hf.1] at hc

/-- No digit of any script is blank. -/
theorem isBlank_of_isDecimalDigit {c : Char} (h : isDecimalDigit c) : isBlank c = false := by
  have happart : ∀ r ∈ digitRanges, ∀ b ∈ blankRanges, r.2 < b.1 ∨ b.2 < r.1 := by decide
  obtain ⟨r, hr, hc⟩ := List.any_eq_true.1 h
  rw [isBlank, inRanges, List.any_eq_false]
  intro b hb
  have := happart r hr b hb
  simp only [Bool.and_eq_true, decide_eq_true_eq] at hc ⊢
  omega

/-- A text with digits at its ends has no blank ends. -/
theorem trimChars_eq_self {cs : List Char} (h : DigitEnds cs) : trimChars cs = cs := by
  have hblank : Bare isBlank cs := h.mono fun c hc =>
    isBlank_of_isDecimalDigit (by simpa using hc)
  exact dropEnds_eq_iff.2 ⟨hblank, [], [], by simp, nofun, nofun⟩

/-- **What is stripped are the decorations**, and all of them. -/
theorem stripDecorations_eq_iff {s : String} {n : List Char} :
    (stripDecorations s).toList = n ↔ DigitEnds n ∧ Decorated n s.toList := by
  simp only [stripDecorations, String.toList_ofList, dropEnds_eq_iff, DigitEnds, Decorated,
    IsDecoration, Bool.not_eq_true']

theorem digitEnds_stripDecorations (s : String) : DigitEnds (stripDecorations s).toList :=
  (stripDecorations_eq_iff.1 rfl).1

theorem decorated_stripDecorations (s : String) :
    Decorated (stripDecorations s).toList s.toList :=
  (stripDecorations_eq_iff.1 rfl).2

end LedgerClient.Text
