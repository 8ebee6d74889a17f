/-
  The lines of a rendered manifest: no text in it can start or end a line.

  * `Instruction.block i` are the lines of an instruction: its keyword, an
    indented line per argument, and a semicolon;
  * `Value.newline_not_mem_chars`: the text of a value holds no line feed, where
    the element kinds of its arrays hold none. Everything else is escaped;
  * `blocks_render`: cut behind each semicolon that is a line, a rendered
    manifest is the blocks of its instructions.
-/
import LedgerClient.Manifest.Instruction
import LedgerClient.Proofs.Text.Lines
import LedgerClient.Proofs.Text.Numeral
import Mathlib.Algebra.Ring.Nat

namespace LedgerClient.Manifest

open Text

/-! ## Characters of values -/

namespace Value

mutual

/-- The element kinds of the arrays in a value, at any depth. -/
def elementKinds : Value → List String
  | array kind vs => kind :: elementKindsOf vs
  | enumeration _ vs | tuple vs => elementKindsOf vs
  | _ => []

/-- The element kinds of the arrays in the values of a list. -/
def elementKindsOf : List Value → List String
  | [] => []
  | v :: vs => v.elementKinds ++ elementKindsOf vs

end

theorem newline_not_mem_digits (n : Nat) : '\n' ∉ digits n :=
  fun h => absurd (isDigit_of_mem_digits n _ h) (by decide)

theorem newline_not_mem_hexDigits (n : Nat) : '\n' ∉ hexDigits n := by
  intro h
  obtain ⟨d, hd, hc⟩ := exists_of_mem_hexDigits n _ h
  have : ∀ d < 16, '\n' ≠ hexChar d := by decide
  exact this d hd hc

theorem newline_not_mem_escapeChar (c : Char) : '\n' ∉ escapeChar c := by
  unfold escapeChar
  repeat' split
  · decide
  · decide
  · decide
  · decide
  · decide
  · simp [newline_not_mem_hexDigits]
  · rename_i h _ _ _
    simpa [eq_comm] using h

/-- Inside its quotes a string holds no line feed. -/
theorem newline_not_mem_quoted (s : String) : '\n' ∉ quoted s := by
  simp [quoted, newline_not_mem_escapeChar]

theorem newline_not_mem_wrapped {name : String} {content : List Char} (hn : '\n' ∉ name.toList)
    (hc : '\n' ∉ content) : '\n' ∉ wrapped name content := by
  simp [wrapped, hn, hc]

theorem newline_not_mem_tagged {name : String} {tag content : List Char}
    (hn : '\n' ∉ name.toList) (ht : '\n' ∉ tag) (hc : '\n' ∉ content) :
    '\n' ∉ tagged name tag content := by
  simp [tagged, hn, ht, hc]

theorem newline_not_mem_integerNumeral (i : Int) : '\n' ∉ (integerNumeral i).toList := by
  unfold integerNumeral numeral
  split <;> simp [newline_not_mem_digits]

mutual

/-- **The text of a value holds no line feed**, where its element kinds hold none. -/
theorem newline_not_mem_chars :
    ∀ v : Value, (∀ kind ∈ v.elementKinds, '\n' ∉ kind.toList) → '\n' ∉ v.chars
  | address a, _ | bucket a, _ | proof a, _ | localId a, _ => by
    rw [chars]
    exact newline_not_mem_wrapped (by decide) (newline_not_mem_quoted a)
  | decimal a, _ | preciseDecimal a, _ => by
    rw [chars]
    exact newline_not_mem_wrapped (by decide) (newline_not_mem_quoted a.text)
  | expression e, _ => by
    rw [chars]
    exact newline_not_mem_wrapped (by decide) (newline_not_mem_quoted e.name)
  | string s, _ => by
    rw [chars]
    exact newline_not_mem_quoted s
  | bool true, _ | bool false, _ => by
    rw [chars]
    decide
  | integer kind i, _ => by
    rw [chars, List.mem_append, not_or]
    exact ⟨newline_not_mem_integerNumeral i, by cases kind <;> decide⟩
  | enumeration variant vs, h => by
    have htag : '\n' ∉ digits variant ++ "u8".toList := by simp [newline_not_mem_digits]
    rw [chars]
    exact newline_not_mem_tagged (by decide) htag (newline_not_mem_listChars vs h)
  | array kind vs, h => by
    rw [elementKinds, List.forall_mem_cons] at h
    rw [chars]
    exact newline_not_mem_tagged (by decide) h.1 (newline_not_mem_listChars vs h.2)
  | tuple vs, h => by
    rw [chars]
    exact newline_not_mem_wrapped (by decide) (newline_not_mem_listChars vs h)

theorem newline_not_mem_listChars :
    ∀ vs : List Value, (∀ kind ∈ elementKindsOf vs, '\n' ∉ kind.toList) → '\n' ∉ listChars vs
  | [], _ => List.not_mem_nil
  | [v], h => by
    rw [listChars]
    exact newline_not_mem_chars v (by simpa [elementKindsOf] using h)
  | v :: w :: vs, h => by
    rw [elementKindsOf, List.forall_mem_append] at h
    have hv := newline_not_mem_chars v h.1
    have hvs := newline_not_mem_listChars (w :: vs) h.2
    simp [listChars, hv, hvs]

end

/-- The text of a value ends with a character of its own. -/
theorem exists_getLast?_chars (v : Value) : ∃ c, v.chars.getLast? = some c ∧ c ≠ '\r' := by
  cases v with
  | integer kind i => cases kind <;> simp [chars, IntegerKind.suffix]
  | bool b => cases b <;> simp [chars]
  | string s => simp [chars, quoted, List.getLast?_cons]
  | _ => simp [chars, wrapped, tagged, List.getLast?_cons]

end Value

/-! ## Blocks -/

namespace Instruction

/-- The line of an argument. -/
def argumentLine (v : Value) : String :=
  "    " ++ v.text

/-- The keyword of an instruction and a line per argument. -/
def body (i : Instruction) : List String :=
  i.keyword :: i.args.map argumentLine

/-- The lines of an instruction: its keyword, a line per argument, and a semicolon. -/
def block (i : Instruction) : List String :=
  i.body ++ [";"]

theorem isLine_keyword (i : Instruction) : IsLine i.keyword.toList := by
  unfold keyword
  split <;> exact ⟨by decide, by decide, by decide⟩

theorem keyword_ne (i : Instruction) : i.keyword ≠ ";" := by
  unfold keyword
  split <;> decide

theorem isLine_argumentLine {v : Value} (h : ∀ kind ∈ v.elementKinds, '\n' ∉ kind.toList) :
    IsLine (argumentLine v).toList := by
  obtain ⟨c, hc, hr⟩ := v.exists_getLast?_chars
  have hv := v.newline_not_mem_chars h
  refine ⟨?_, ?_, ?_⟩
  · simp [argumentLine]
  · simp [argumentLine, Value.text, hv]
  · simp [argumentLine, Value.text, List.getLast?_cons, hc, hr]

theorem argumentLine_ne (v : Value) : argumentLine v ≠ ";" := by
  intro h
  have := congrArg String.toList h
  simp [argumentLine] at this

theorem isLine_of_mem_block {i : Instruction}
    (h : ∀ v ∈ i.args, ∀ kind ∈ v.elementKinds, '\n' ∉ kind.toList) :
    ∀ line ∈ i.block, IsLine line.toList := by
  intro line hline
  rcases List.mem_append.1 hline with hline | hline
  · rcases List.mem_cons.1 hline with rfl | hline
    · exact i.isLine_keyword
    · obtain ⟨v, hv, rfl⟩ := List.mem_map.1 hline
      exact isLine_argumentLine (h v hv)
  · rw [List.mem_singleton.1 hline]
    exact ⟨by decide, by decide, by decide⟩

/-- The semicolon stands at the end of a block only. -/
theorem semicolon_not_mem_body (i : Instruction) : ";" ∉ i.body := by
  rw [body, List.mem_cons, not_or]
  refine ⟨i.keyword_ne.symm, fun h => ?_⟩
  obtain ⟨v, -, hv⟩ := List.mem_map.1 h
  exact argumentLine_ne v hv

theorem chars_eq_intercalate (i : Instruction) :
    i.chars = ['\n'].intercalate (i.block.map String.toList) := by
  rw [block, body, List.map_append, List.map_cons, List.cons_append, intercalate_cons]
  simp [chars, argumentLine, Value.text, List.flatMap_map]

end Instruction

theorem renderChars_eq_intercalate : ∀ m : Manifest,
    renderChars m = ['\n'].intercalate ((m.flatMap Instruction.block).map String.toList)
  | [] => rfl
  | [i] => by simp [renderChars, i.chars_eq_intercalate]
  | i :: j :: m => by
    have hi : i.block.map String.toList ≠ [] := by simp [Instruction.block]
    have hm : ((j :: m).flatMap Instruction.block).map String.toList ≠ [] := by
      simp [Instruction.block]
    have hr : renderChars (i :: j :: m) = i.chars ++ '\n' :: renderChars (j :: m) := rfl
    rw [hr, i.chars_eq_intercalate, renderChars_eq_intercalate (j :: m),
      ← intercalate_append hi hm, ← List.map_append]
    rfl

/-- The lines of a rendered manifest are those of its instructions. -/
theorem lines_render {m : Manifest}
    (h : ∀ i ∈ m, ∀ v ∈ i.args, ∀ kind ∈ v.elementKinds, '\n' ∉ kind.toList) :
    lines m.render = m.flatMap Instruction.block := by
  have hlines : ∀ line ∈ (m.flatMap Instruction.block).map String.toList, IsLine line := by
    intro line hline
    obtain ⟨s, hs, rfl⟩ := List.mem_map.1 hline
    obtain ⟨i, hi, hs⟩ := List.mem_flatMap.1 hs
    exact Instruction.isLine_of_mem_block (h i hi) s hs
  rw [lines, render, String.toList_ofList, renderChars_eq_intercalate, linesOf_intercalate hlines]
  simp

/-- **No text can alter the structure of a rendered manifest.** Cut behind each
    line that is a semicolon, it is the blocks of its instructions. -/
theorem blocks_render {m : Manifest}
    (h : ∀ i ∈ m, ∀ v ∈ i.args, ∀ kind ∈ v.elementKinds, '\n' ∉ kind.toList) :
    cutAfter ";" (lines m.render) = m.map Instruction.block ∧
      (lines m.render).length = (m.map fun i => 2 + i.args.length).sum := by
  rw [lines_render h]
  constructor
  · have hbody : ∀ body ∈ m.map Instruction.body, ";" ∉ body := by
      intro body hbody
      obtain ⟨i, -, rfl⟩ := List.mem_map.1 hbody
      exact i.semicolon_not_mem_body
    have hcut := cutAfter_flatten hbody
    rw [List.flatMap_map, List.map_map] at hcut
    exact hcut
  · rw [List.length_flatMap]
    congr 1
    refine List.map_congr_left fun i _ => ?_
    simp only [Instruction.block, Instruction.body, List.length_append, List.length_cons,
      List.length_map, List.length_nil]
    omega

/-- Texts that spell an instruction add none, as an address or inside an array. -/
theorem blocks_render_hostile_texts :
    (∀ i ∈ [Instruction.callMethod "\")\n;" "m" [.array "String" [.string "\r\n;\nBURN"]],
        .dropAllProofs], ∀ v ∈ i.args, ∀ kind ∈ v.elementKinds, '\n' ∉ kind.toList) ∧
      cutAfter ";" (lines (render [.callMethod "\")\n;" "m"
          [.array "String" [.string "\r\n;\nBURN"]], .dropAllProofs])) =
        [["CALL_METHOD", "    Address(\"\\\")\\n;\")", "    \"m\"",
            "    Array<String>(\"\\r\\n;\\nBURN\")", ";"],
         ["DROP_ALL_PROOFS", ";"]] := by
  have h : ∀ i ∈ [Instruction.callMethod "\")\n;" "m" [.array "String" [.string "\r\n;\nBURN"]],
      .dropAllProofs], ∀ v ∈ i.args, ∀ kind ∈ v.elementKinds, '\n' ∉ kind.toList := by
    simp [Instruction.args, Value.elementKinds, Value.elementKindsOf]
  refine ⟨h, (blocks_render h).1.trans ?_⟩
  decide

end LedgerClient.Manifest
