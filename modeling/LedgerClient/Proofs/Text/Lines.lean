/-
  Lines: where a text is cut, and texts that are cut back into the lines they
  were put together from.

  * `cutAfter stop xs` cuts a list behind each member that is `stop`;
  * `lines s` are the lines of a string. A line ends at a line feed, together
    with a carriage return in front of it, and nothing follows the last end;
  * `linesOf_intercalate`: lines with line feeds between them are the lines of
    the text.
-/
import LedgerClient.Text.Search

namespace LedgerClient.Text

/-! ## Cutting -/

variable {α : Type}

section
variable [DecidableEq α] {stop : α}

/-- The parts of a list, cut behind each member that is `stop`. -/
def cutAfter (stop : α) : List α → List (List α)
  | [] => []
  | x :: xs =>
    if x = stop then [x] :: cutAfter stop xs
    else match cutAfter stop xs with
      | [] => [[x]]
      | part :: parts => (x :: part) :: parts

theorem cutAfter_cons {x : α} (hx : x ≠ stop) {xs part : List α} {parts : List (List α)}
    (h : cutAfter stop xs = part :: parts) : cutAfter stop (x :: xs) = (x :: part) :: parts := by
  rw [cutAfter, if_neg hx, h]

/-- The first part ends with the first `stop`. -/
theorem cutAfter_append_stop (rest : List α) :
    ∀ {xs : List α}, stop ∉ xs →
      cutAfter stop (xs ++ stop :: rest) = (xs ++ [stop]) :: cutAfter stop rest
  | [], _ => by rw [List.nil_append, cutAfter, if_pos rfl, List.nil_append]
  | x :: xs, h => by
    rw [List.mem_cons, not_or] at h
    exact cutAfter_cons (Ne.symm h.1) (cutAfter_append_stop rest h.2)

/-- Without a `stop` there is one part. -/
theorem cutAfter_of_not_mem : ∀ {xs : List α}, xs ≠ [] → stop ∉ xs → cutAfter stop xs = [xs]
  | [x], _, h => by rw [cutAfter, if_neg (Ne.symm (List.ne_of_not_mem_cons h)), cutAfter]
  | x :: y :: xs, _, h => by
    rw [List.mem_cons, not_or] at h
    exact cutAfter_cons (Ne.symm h.1) (cutAfter_of_not_mem (List.cons_ne_nil y xs) h.2)

/-- Lists that end with their only `stop` are the parts of their concatenation. -/
theorem cutAfter_flatten : ∀ {parts : List (List α)}, (∀ part ∈ parts, stop ∉ part) →
    cutAfter stop (parts.flatMap (· ++ [stop])) = parts.map (· ++ [stop])
  | [], _ => rfl
  | part :: parts, h => by
    rw [List.forall_mem_cons] at h
    rw [List.flatMap_cons, List.append_assoc, List.singleton_append, cutAfter_append_stop _ h.1,
      cutAfter_flatten h.2, List.map_cons]

end

/-! ## Putting together -/

theorem intercalate_cons {sep : α} (xs : List α) :
    ∀ parts : List (List α),
      [sep].intercalate (xs :: parts) = xs ++ parts.flatMap fun part => sep :: part
  | [] => by rw [List.intercalate_singleton, List.flatMap_nil, List.append_nil]
  | part :: parts => by
    rw [List.intercalate_cons_cons, intercalate_cons part parts, List.flatMap_cons,
      List.append_assoc, List.singleton_append, List.cons_append]

theorem intercalate_append {sep : α} {parts parts' : List (List α)} (h : parts ≠ [])
    (h' : parts' ≠ []) :
    [sep].intercalate (parts ++ parts') =
      [sep].intercalate parts ++ sep :: [sep].intercalate parts' := by
  obtain ⟨part, parts, rfl⟩ := List.exists_cons_of_ne_nil h
  obtain ⟨part', parts', rfl⟩ := List.exists_cons_of_ne_nil h'
  simp only [List.cons_append, intercalate_cons, List.flatMap_append, List.flatMap_cons,
    List.append_assoc]

/-! ## Lines -/

/-- A line without its end. -/
def dropLineEnd (line : List Char) : List Char :=
  if line.getLast? = some '\n' then
    let line := line.dropLast
    if line.getLast? = some '\r' then line.dropLast else line
  else line

/-- The characters of the lines of a text. -/
def linesOf (cs : List Char) : List (List Char) :=
  (cutAfter '\n' cs).map dropLineEnd

/-- The lines of a string. -/
def lines (s : String) : List String :=
  (linesOf s.toList).map String.ofList

/-- A text that stands as one line: it is not empty and holds no line end, nor
    the first half of one at its own end. -/
def IsLine (line : List Char) : Prop :=
  line ≠ [] ∧ '\n' ∉ line ∧ line.getLast? ≠ some '\r'

theorem linesOf_append {line : List Char} (h : IsLine line) (rest : List Char) :
    linesOf (line ++ '\n' :: rest) = line :: linesOf rest := by
  rw [linesOf, cutAfter_append_stop rest h.2.1, List.map_cons, linesOf]
  congr 1
  simp [dropLineEnd, h.2.2]

theorem linesOf_of_isLine {line : List Char} (h : IsLine line) : linesOf line = [line] := by
  have hlast : line.getLast? ≠ some '\n' := fun he => h.2.1 (List.mem_of_getLast? he)
  rw [linesOf, cutAfter_of_not_mem h.1 h.2.1, List.map_singleton, dropLineEnd, if_neg hlast]

/-- **Lines with line feeds between them are the lines of the text.** -/
theorem linesOf_intercalate : ∀ {ls : List (List Char)}, (∀ line ∈ ls, IsLine line) →
    linesOf (['\n'].intercalate ls) = ls
  | [], _ => rfl
  | [line], h => by rw [List.intercalate_singleton, linesOf_of_isLine (h line (by simp))]
  | line :: next :: ls, h => by
    rw [List.forall_mem_cons] at h
    rw [List.intercalate_cons_cons, List.append_assoc, List.singleton_append,
      linesOf_append h.1, linesOf_intercalate h.2]

end LedgerClient.Text
