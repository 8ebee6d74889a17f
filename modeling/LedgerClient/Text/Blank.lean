/-
  Blank characters: the white space of Unicode, and texts without it at their
  ends.

  * `isBlank c` holds for the 25 characters with the property White_Space;
  * `dropEnds p cs` drops the characters in `p` at both ends of `cs`, and
    `trim` drops the blank ones of a string.
-/

namespace LedgerClient.Text

/-- The character ranges of the property White_Space, ascending and apart. -/
def blankRanges : List (Nat × Nat) :=
  [(0x09, 0x0D), (0x20, 0x20), (0x85, 0x85), (0xA0, 0xA0), (0x1680, 0x1680), (0x2000, 0x200A),
   (0x2028, 0x2029), (0x202F, 0x202F), (0x205F, 0x205F), (0x3000, 0x3000)]

/-- Whether a code point lies in one of the closed ranges. -/
def inRanges (ranges : List (Nat × Nat)) (code : Nat) : Bool :=
  ranges.any fun r => r.1 ≤ code && code ≤ r.2

/-- A blank character, in the sense of the property White_Space. -/
def isBlank (c : Char) : Bool :=
  inRanges blankRanges c.toNat

/-! ## Dropping at the ends -/

/-- The list without its last members that satisfy `p`. -/
def dropEndWhile {α : Type} (p : α → Bool) (xs : List α) : List α :=
  (xs.reverse.dropWhile p).reverse

/-- The list without its first and last members that satisfy `p`. -/
def dropEnds {α : Type} (p : α → Bool) (xs : List α) : List α :=
  dropEndWhile p (xs.dropWhile p)

/-- Where the first member fails `p`, nothing is dropped at the start. -/
theorem dropWhile_cons_of_not {α : Type} {p : α → Bool} {x : α} (xs : List α)
    (h : p x = false) : (x :: xs).dropWhile p = x :: xs := by
  simp [h]

/-- A list that starts with a member failing `p` keeps it at both ends. -/
theorem dropEndWhile_cons_of_not {α : Type} {p : α → Bool} {x : α} (xs : List α)
    (h : p x = false) : ∃ ys, dropEndWhile p (x :: xs) = x :: ys := by
  unfold dropEndWhile
  rw [List.reverse_cons, List.dropWhile_append]
  split
  · exact ⟨[], by simp [h]⟩
  · exact ⟨(xs.reverse.dropWhile p).reverse, by simp⟩

/-- Nothing is dropped in front of a member failing `p`. -/
theorem dropEndWhile_append_of_not {α : Type} {p : α → Bool} {y : α} (xs ys : List α)
    (h : p y = false) : dropEndWhile p (xs ++ y :: ys) = xs ++ dropEndWhile p (y :: ys) := by
  obtain ⟨zs, hz⟩ := dropEndWhile_cons_of_not ys h
  unfold dropEndWhile at hz ⊢
  rw [List.reverse_append, List.dropWhile_append]
  split
  · rename_i hempty
    rw [List.isEmpty_iff.1 hempty] at hz
    cases hz
  · rw [List.reverse_append, List.reverse_reverse]

/-- Members that satisfy `p` are dropped at the end. -/
theorem dropEndWhile_append_of_pos {α : Type} {p : α → Bool} (xs : List α) {ys : List α}
    (h : ∀ y ∈ ys, p y) : dropEndWhile p (xs ++ ys) = dropEndWhile p xs := by
  rw [dropEndWhile, dropEndWhile, List.reverse_append,
    List.dropWhile_append_of_pos fun y hy => h y (List.mem_reverse.1 hy)]

/-- Nothing is dropped at the end where the last member fails `p`. -/
theorem dropEndWhile_eq_self {α : Type} {p : α → Bool} {xs : List α}
    (h : ∀ y, xs.getLast? = some y → p y = false) : dropEndWhile p xs = xs := by
  rw [← List.head?_reverse] at h
  rw [dropEndWhile]
  cases hr : xs.reverse with
  | nil => exact (List.reverse_eq_nil_iff.1 hr).symm
  | cons y ys => rw [dropWhile_cons_of_not ys (h y (by rw [hr]; rfl)), ← hr, List.reverse_reverse]

/-- What is dropped at the end satisfies `p`. -/
theorem exists_dropEndWhile_append {α : Type} (p : α → Bool) (xs : List α) :
    ∃ ys, (∀ y ∈ ys, p y) ∧ xs = dropEndWhile p xs ++ ys := by
  refine ⟨(xs.reverse.takeWhile p).reverse, fun y hy => ?_, ?_⟩
  · exact List.all_eq_true.1 (List.all_takeWhile (l := xs.reverse)) y (List.mem_reverse.1 hy)
  · rw [dropEndWhile, ← List.reverse_append, List.takeWhile_append_dropWhile, List.reverse_reverse]

/-- What is left does not end with a member that satisfies `p`. -/
theorem getLast?_dropEndWhile {α : Type} {p : α → Bool} {xs : List α} {y : α}
    (h : (dropEndWhile p xs).getLast? = some y) : p y = false := by
  have hnot := List.head?_dropWhile_not p xs.reverse
  rw [dropEndWhile, List.getLast?_reverse] at h
  simpa [h] using hnot

theorem dropEndWhile_dropEndWhile {α : Type} (p : α → Bool) (xs : List α) :
    dropEndWhile p (dropEndWhile p xs) = dropEndWhile p xs := by
  simp only [dropEndWhile, List.reverse_reverse, List.reverse_inj]
  induction xs.reverse with
  | nil => rfl
  | cons x ys ih =>
    by_cases h : p x
    · simpa [h] using ih
    · simp [h]

/-- A second dropping changes nothing. -/
theorem dropEnds_dropEnds {α : Type} (p : α → Bool) (xs : List α) :
    dropEnds p (dropEnds p xs) = dropEnds p xs := by
  unfold dropEnds
  cases hd : xs.dropWhile p with
  | nil => simp [dropEndWhile]
  | cons x ys =>
    have hx : p x = false := by
      have := List.head?_dropWhile_not p xs
      rw [hd] at this
      simpa using this
    obtain ⟨zs, hz⟩ := dropEndWhile_cons_of_not ys hx
    rw [hz, dropWhile_cons_of_not zs hx, ← hz, dropEndWhile_dropEndWhile]

/-- The text without blank characters at its ends. -/
def trimChars (cs : List Char) : List Char :=
  dropEnds isBlank cs

/-- The string without blank characters at its ends. -/
def trim (s : String) : String :=
  String.ofList (trimChars s.toList)

theorem trim_trim (s : String) : trim (trim s) = trim s := by
  simp [trim, trimChars, dropEnds_dropEnds]

end LedgerClient.Text
