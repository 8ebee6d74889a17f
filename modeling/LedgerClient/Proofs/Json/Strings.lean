/-
  Strings in JSON texts: what was written is read back.

  * `readString_escapeChar`: a character that was written is read back, escaped or not;
  * `readString_quoted`: so is a string, up to its closing quote, whatever follows it;
  * `read?_record`: and a document that is an object with one string in it.
-/
import LedgerClient.Json.Reader
import LedgerClient.Json.Writer

namespace LedgerClient.Json

open Text

/-! ## Escapes -/

theorem hexValue?_hexChar : ∀ n < 16, hexValue? (hexChar n) = some n := by
  decide

/-- The four digits of a `u` escape for the first characters. -/
theorem padLeft_hexDigits {n : Nat} (h : n < 256) :
    padLeft 4 (hexDigits n) = ['0', '0', hexChar (n / 16), hexChar (n % 16)] := by
  rw [hexDigits]
  split
  · rename_i hn
    rw [Nat.div_eq_of_lt hn, Nat.mod_eq_of_lt hn]
    rfl
  · have hn : n / 16 < 16 := by omega
    rw [hexDigits, if_pos hn]
    rfl

theorem unicodeEscape?_control {c : Char} (h : c.toNat < 0x20) (rest : List Char) :
    unicodeEscape? (padLeft 4 (hexDigits c.toNat) ++ rest) = some (c, rest) := by
  have hzero : hexValue? '0' = some 0 := by decide
  have hhigh : c.toNat / 16 < 16 := by omega
  have hlow : c.toNat % 16 < 16 := by omega
  have hunit : hex4? (padLeft 4 (hexDigits c.toNat) ++ rest) = some (c.toNat, rest) := by
    rw [padLeft_hexDigits (by omega)]
    simp only [List.cons_append, List.nil_append, hex4?, hzero, hexValue?_hexChar _ hhigh,
      hexValue?_hexChar _ hlow]
    show some (_, rest) = some (_, rest)
    congr 2
    omega
  have hlead : ¬(0xD800 ≤ c.toNat ∧ c.toNat < 0xDC00) := by omega
  have htrail : ¬(0xDC00 ≤ c.toNat ∧ c.toNat < 0xE000) := by omega
  rw [unicodeEscape?, hunit]
  show (if _ then _ else _) = _
  rw [if_neg hlead, if_neg htrail, Char.ofNat_toNat]

/-! ## Strings -/

theorem readString_letter {letter c : Char} (hu : letter ≠ 'u') (h : unescape? letter = some c)
    (fuel : Nat) (rest : List Char) :
    readString (fuel + 1) ('\\' :: letter :: rest) =
      (readString fuel rest).map fun (s, rest) => (c :: s, rest) := by
  rw [readString, if_neg (by decide), if_pos rfl, h]
  · cases readString fuel rest <;> rfl
  · exact hu

/-- **A character that was written is read back.** -/
theorem readString_escapeChar (fuel : Nat) (c : Char) (rest : List Char) :
    readString (fuel + 1) (escapeChar c ++ rest) =
      (readString fuel rest).map fun (s, rest) => (c :: s, rest) := by
  have hletter : ∀ (letter : Char) {code : Nat}, letter ≠ 'u' →
      unescape? letter = some (Char.ofNat code) → c.toNat = code →
      readString (fuel + 1) ('\\' :: letter :: rest) =
        (readString fuel rest).map fun (s, rest) => (c :: s, rest) := by
    rintro letter _ hu h rfl
    exact readString_letter hu (by rw [h, Char.ofNat_toNat]) fuel rest
  unfold escapeChar
  split
  · exact hletter '"' (by decide) rfl (by rename_i h; rw [h]; rfl)
  split
  · exact hletter '\\' (by decide) rfl (by rename_i h; rw [h]; rfl)
  split
  · exact hletter 'n' (by decide) rfl (by rename_i h; rw [h]; rfl)
  split
  · exact hletter 'r' (by decide) rfl (by rename_i h; rw [h]; rfl)
  split
  · exact hletter 't' (by decide) rfl (by rename_i h; rw [h]; rfl)
  split
  · exact hletter 'b' (by decide) rfl ‹_›
  split
  · exact hletter 'f' (by decide) rfl ‹_›
  split
  · rename_i hcontrol
    show readString (fuel + 1) ('\\' :: 'u' :: (padLeft 4 (hexDigits c.toNat) ++ rest)) = _
    rw [readString, if_neg (by decide), if_pos rfl]
    rw [unicodeEscape?_control hcontrol]
    show (readString fuel rest).bind _ = _
    cases readString fuel rest <;> rfl
  · rename_i hquote hbackslash _ _ _ _ _ hcontrol
    rw [List.singleton_append, readString.eq_def]
    dsimp only
    rw [if_neg hquote, if_neg hbackslash, if_neg hcontrol]

theorem readString_escaped (s tail : List Char) {fuel : Nat} (h : s.length < fuel) :
    readString fuel (s.flatMap escapeChar ++ '"' :: tail) = some (s, tail) := by
  induction s generalizing fuel with
  | nil =>
    cases fuel with
    | zero => cases h
    | succ fuel => rfl
  | cons c s ih =>
    cases fuel with
    | zero => cases h
    | succ fuel =>
      rw [List.flatMap_cons, List.append_assoc, readString_escapeChar,
        ih (Nat.lt_of_succ_lt_succ h)]
      rfl

theorem length_le_escaped (s : List Char) : s.length ≤ (s.flatMap escapeChar).length := by
  have hpos : ∀ c, 1 ≤ (escapeChar c).length := by
    intro c
    unfold escapeChar
    repeat' split
    all_goals simp
  induction s with
  | nil => exact Nat.le_refl 0
  | cons c s ih =>
    have := hpos c
    rw [List.length_cons, List.flatMap_cons, List.length_append]
    omega

/-- **A string that was written is read back**, behind its first quote. -/
theorem readString_quoted (s : String) (tail : List Char) {rest : List Char}
    (h : quoted s ++ tail = '"' :: rest) :
    readString (rest.length + 1) rest = some (s.toList, tail) := by
  obtain rfl : rest = s.toList.flatMap escapeChar ++ '"' :: tail := by
    rw [quoted, List.cons_append, List.cons_append, List.append_assoc] at h
    exact (List.cons.inj h).2.symm
  refine readString_escaped _ _ ?_
  have := length_le_escaped s.toList
  rw [List.length_append]
  omega

/-! ## Documents -/

theorem skipSpace_cons {c : Char} (h : isSpace c = false) (rest : List Char) :
    skipSpace (c :: rest) = c :: rest :=
  dropWhile_cons_of_not rest h

theorem readValue_quoted (fuel depth : Nat) (s : String) (tail : List Char) :
    readValue (fuel + 1) depth (quoted s ++ tail) = some (.str s, tail) := by
  obtain ⟨rest, hrest⟩ : ∃ rest, quoted s ++ tail = '"' :: rest := ⟨_, rfl⟩
  rw [hrest, readValue, skipSpace_cons rfl]
  show (readString (rest.length + 1) rest).bind _ = _
  rw [readString_quoted s tail hrest]
  show some (Json.str (String.ofList s.toList), tail) = _
  rw [String.ofList_toList]

theorem readMembers_quoted (fuel depth : Nat) (name value : String) (tail : List Char) :
    readMembers (fuel + 2) depth (quoted name ++ ':' :: (quoted value ++ '\x7d' :: tail)) =
      some ([(name, .str value)], tail) := by
  obtain ⟨rest, hrest⟩ : ∃ rest,
      quoted name ++ ':' :: (quoted value ++ '\x7d' :: tail) = '"' :: rest := ⟨_, rfl⟩
  rw [hrest, readMembers, skipSpace_cons rfl]
  show (readString (rest.length + 1) rest).bind _ = _
  rw [readString_quoted name _ hrest]
  show (readValue (fuel + 1) depth (quoted value ++ '\x7d' :: tail)).bind _ = _
  rw [readValue_quoted]
  show some ([(String.ofList name.toList, Json.str value)], tail) = _
  rw [String.ofList_toList]

/-- **An object with one string in it is read back.** -/
theorem read?_record (name value : String) :
    read? (obj [(name, str value)]).compact = some (obj [(name, str value)]) := by
  obtain ⟨rest, hrest⟩ : ∃ rest,
      quoted name ++ ':' :: (quoted value ++ '\x7d' :: []) = '"' :: rest := ⟨_, rfl⟩
  have hchars : (obj [(name, str value)]).compact.toList = '\x7b' :: '"' :: rest := by
    rw [compact, String.toList_ofList, write, writeMembers, write, List.append_assoc,
      List.cons_append, hrest]
  have hfuel : 2 * ('\x7b' :: '"' :: rest).length + 2 = 2 * rest.length + 3 + 2 + 1 := by
    simp only [List.length_cons]
    omega
  have hvalue : readValue (2 * rest.length + 3 + 2 + 1) maxDepth ('\x7b' :: '"' :: rest) =
      some (obj [(name, str value)], []) := by
    rw [readValue, skipSpace_cons rfl]
    show (readMembers (2 * rest.length + 3 + 2) 126 ('"' :: rest)).bind _ = _
    rw [← hrest, readMembers_quoted]
    rfl
  rw [read?, hchars, hfuel, hvalue]
  rfl

end LedgerClient.Json
