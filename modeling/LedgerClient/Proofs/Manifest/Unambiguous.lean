/-
  Texts of values are told apart.

  * `Escape.append_inj` and `quoted_append_inj`: the written form of a character, and of a string
    in its quotes, can be told from what follows it;
  * `Form` is how a value is made, which the first characters of its text tell (`form_eq`);
  * `chars_append_inj`: so the text of a value tells the value and where it ends, whatever
    follows, where no element kind in it holds a `>`;
  * `text_tells_value`: two values, or two lists of arguments, never have the same text.
-/
import LedgerClient.Proofs.Amount.Canonical
import LedgerClient.Proofs.Manifest.Render

namespace LedgerClient

/-! ## Texts up to a stop -/

namespace Text

/-- Where two texts begin alike up to the first character that is not in `p`, they go on alike. -/
theorem append_stop_inj {p : Char → Bool} {xs ys r s : List Char} {x y : Char}
    (hxs : ∀ c ∈ xs, p c) (hys : ∀ c ∈ ys, p c) (hx : ¬p x) (hy : ¬p y)
    (h : xs ++ x :: r = ys ++ y :: s) : xs = ys ∧ x :: r = y :: s := by
  have htake := congrArg (List.takeWhile p) h
  rw [List.takeWhile_append_of_pos hxs, List.takeWhile_append_of_pos hys,
    List.takeWhile_cons_of_neg hx, List.takeWhile_cons_of_neg hy, List.append_nil,
    List.append_nil] at htake
  subst htake
  exact ⟨rfl, List.append_cancel_left h⟩

theorem hexDigits_ne_nil (n : Nat) : hexDigits n ≠ [] := by
  rw [hexDigits]
  split <;> simp

theorem hexChar_inj {m n : Nat} (hm : m < 16) (hn : n < 16) (h : hexChar m = hexChar n) :
    m = n := by
  have : ∀ m < 16, ∀ n < 16, hexChar m = hexChar n → m = n := by decide
  exact this m hm n hn h

theorem digits_inj {m n : Nat} (h : digits m = digits n) : m = n := by
  rw [← valueOf_digits m, h, valueOf_digits]

theorem hexDigits_inj {m n : Nat} (h : hexDigits m = hexDigits n) : m = n := by
  have hlong : ∀ (k : Nat) (c d : Char), hexDigits k ++ [c] ≠ [d] := by
    intro k c d hk
    have := congrArg List.length hk
    simp [hexDigits_ne_nil] at this
  fun_induction hexDigits m generalizing n with
  | case1 m hm =>
    rw [hexDigits] at h
    split at h
    · rename_i hn
      exact hexChar_inj hm hn (List.singleton_inj.1 h)
    · exact absurd h.symm (hlong _ _ _)
  | case2 m hm ih =>
    rw [hexDigits.eq_def n] at h
    split at h
    · exact absurd h (hlong _ _ _)
    · obtain ⟨hinit, hlast⟩ := List.append_inj' h rfl
      have hdiv := ih hinit
      have hmod := hexChar_inj (Nat.mod_lt m (by decide)) (Nat.mod_lt n (by decide))
        (List.singleton_inj.1 hlast)
      omega

theorem exists_digits_cons (n : Nat) : ∃ c cs, digits n = c :: cs ∧ isDigit c := by
  obtain ⟨hne, hdigit⟩ := isNumeral_digits n
  obtain ⟨c, cs, hds⟩ := List.exists_cons_of_ne_nil hne
  exact ⟨c, cs, hds, hdigit c (by simp [hds])⟩

theorem toList_integerNumeral (i : Int) :
    (integerNumeral i).toList = if i < 0 then '-' :: digits i.natAbs else digits i.natAbs := by
  rw [integerNumeral, numeral]
  split <;> simp

/-- A numeral starts with a digit or a minus sign. -/
theorem exists_integerNumeral_cons (i : Int) :
    ∃ c cs, (integerNumeral i).toList = c :: cs ∧ (isDigit c ∨ c = '-') := by
  obtain ⟨c, cs, hds, hc⟩ := exists_digits_cons i.natAbs
  rw [toList_integerNumeral]
  split
  · exact ⟨_, _, rfl, Or.inr rfl⟩
  · exact ⟨c, cs, hds, Or.inl hc⟩

/-- The numeral of an integer ends before what is not a digit. -/
theorem integerNumeral_append_inj {i j : Int} {x y : Char} {r s : List Char} (hx : ¬isDigit x)
    (hy : ¬isDigit y) (h : (integerNumeral i).toList ++ x :: r = (integerNumeral j).toList ++ y :: s) :
    i = j ∧ x :: r = y :: s := by
  have hdigits : ∀ {m n : Nat}, digits m ++ x :: r = digits n ++ y :: s →
      m = n ∧ x :: r = y :: s := fun {m n} h =>
    (append_stop_inj (isDigit_of_mem_digits m) (isDigit_of_mem_digits n) hx hy h).imp_left digits_inj
  have hminus : ∀ {n : Nat} {r s : List Char}, '-' :: r ≠ digits n ++ s := by
    intro n r s h
    obtain ⟨c, cs, hds, hc⟩ := exists_digits_cons n
    rw [hds] at h
    obtain ⟨rfl, -⟩ := List.cons.inj h
    exact absurd hc (by decide)
  rw [toList_integerNumeral, toList_integerNumeral] at h
  by_cases hi : i < 0 <;> by_cases hj : j < 0 <;> simp only [hi, hj, if_true, if_false] at h
  · obtain ⟨habs, hrest⟩ := hdigits (List.cons.inj h).2
    exact ⟨by omega, hrest⟩
  · exact absurd h hminus
  · exact absurd h.symm hminus
  · obtain ⟨habs, hrest⟩ := hdigits h
    exact ⟨by omega, hrest⟩

end Text

theorem Amount.text_inj {a b : Amount} (h : a.text = b.text) : a = b := by
  have ha := a.parse_text
  rw [h, b.parse_text] at ha
  exact (Except.ok.inj ha).symm

namespace Manifest.Value

open Text

/-! ## Strings in quotes -/

/-- The characters that are escaped with a letter of their own. -/
def letters : List (Char × Char) :=
  [('"', '"'), ('\\', '\\'), ('\n', 'n'), ('\r', 'r'), ('\t', 't')]

/-- The ways to write a character inside quotes. -/
inductive Escape (c : Char) : List Char → Prop
  | letter {l : Char} : (c, l) ∈ letters → Escape c ['\\', l]
  | code : Escape c ('\\' :: 'u' :: '\x7b' :: (hexDigits c.toNat ++ ['\x7d']))
  | plain : c ≠ '"' → c ≠ '\\' → Escape c [c]

theorem escape_escapeChar (c : Char) : Escape c (escapeChar c) := by
  unfold escapeChar
  repeat' split
  · rename_i h; exact .letter (by simp [h, letters])
  · rename_i h; exact .letter (by simp [h, letters])
  · rename_i h; exact .letter (by simp [h, letters])
  · rename_i h; exact .letter (by simp [h, letters])
  · rename_i h; exact .letter (by simp [h, letters])
  · exact .code
  · exact .plain (by assumption) (by assumption)

namespace Escape

variable {c d : Char} {cs ds r s : List Char}

/-- No quote is written as such. -/
theorem exists_cons (h : Escape c cs) : ∃ x rest, cs = x :: rest ∧ x ≠ '"' := by
  cases h with
  | letter _ => exact ⟨_, _, rfl, by decide⟩
  | code => exact ⟨_, _, rfl, by decide⟩
  | plain hquote _ => exact ⟨_, _, rfl, hquote⟩

theorem letters_inj : ∀ p ∈ letters, ∀ q ∈ letters, p.2 = q.2 → p.1 = q.1 := by
  decide

theorem letters_ne : ∀ p ∈ letters, p.2 ≠ 'u' := by
  decide

/-- **The written form of a character tells the character and where it ends.** -/
theorem append_inj (hc : Escape c cs) (hd : Escape d ds) (h : cs ++ r = ds ++ s) :
    c = d ∧ r = s := by
  have hbrace : ∀ n, ∀ x ∈ hexDigits n, (x != '\x7d') = true := by
    intro n x hx
    obtain ⟨k, hk, rfl⟩ := exists_of_mem_hexDigits n x hx
    have : ∀ k < 16, (hexChar k != '\x7d') = true := by decide
    exact this k hk
  cases hc with
  | letter hl =>
    cases hd with
    | letter hm =>
      simp only [List.cons_append, List.nil_append, List.cons.injEq, true_and] at h
      exact ⟨letters_inj _ hl _ hm h.1, h.2⟩
    | code =>
      simp only [List.cons_append, List.nil_append, List.cons.injEq, true_and] at h
      exact absurd h.1 (letters_ne _ hl)
    | plain _ hslash => exact absurd (List.cons.inj h).1.symm hslash
  | code =>
    cases hd with
    | letter hm =>
      simp only [List.cons_append, List.nil_append, List.cons.injEq, true_and] at h
      exact absurd h.1.symm (letters_ne _ hm)
    | code =>
      simp only [List.cons_append, List.append_assoc, List.nil_append, List.cons.injEq,
        true_and] at h
      obtain ⟨hdigits, hrest⟩ := append_stop_inj (hbrace _) (hbrace _) (by decide) (by decide) h
      exact ⟨Char.toNat_inj.1 (hexDigits_inj hdigits), (List.cons.inj hrest).2⟩
    | plain _ hslash => exact absurd (List.cons.inj h).1.symm hslash
  | plain _ hslash =>
    cases hd with
    | letter _ => exact absurd (List.cons.inj h).1 hslash
    | code => exact absurd (List.cons.inj h).1 hslash
    | plain _ _ => exact List.cons.inj h

end Escape

theorem escaped_append_inj {xs ys r s : List Char}
    (h : xs.flatMap escapeChar ++ '"' :: r = ys.flatMap escapeChar ++ '"' :: s) :
    xs = ys ∧ r = s := by
  have hquote : ∀ {c : Char} {r s : List Char}, '"' :: r ≠ escapeChar c ++ s := by
    intro c r s h
    obtain ⟨x, rest, hx, hne⟩ := (escape_escapeChar c).exists_cons
    rw [hx] at h
    exact hne (List.cons.inj h).1.symm
  induction xs generalizing ys with
  | nil =>
    cases ys with
    | nil => exact ⟨rfl, (List.cons.inj h).2⟩
    | cons y ys =>
      rw [List.flatMap_cons, List.append_assoc] at h
      exact absurd h hquote
  | cons x xs ih =>
    cases ys with
    | nil =>
      rw [List.flatMap_cons, List.append_assoc] at h
      exact absurd h.symm hquote
    | cons y ys =>
      rw [List.flatMap_cons, List.flatMap_cons, List.append_assoc, List.append_assoc] at h
      obtain ⟨rfl, hrest⟩ := (escape_escapeChar x).append_inj (escape_escapeChar y) h
      exact (ih hrest).imp_left (congrArg _)

/-- **A string in its quotes tells the string and where it ends.** -/
theorem quoted_append_inj {a b : String} {r s : List Char} (h : quoted a ++ r = quoted b ++ s) :
    a = b ∧ r = s := by
  simp only [quoted, List.cons_append, List.append_assoc, List.nil_append, List.cons.injEq,
    true_and] at h
  exact (escaped_append_inj h).imp_left String.toList_inj.1

/-! ## Names with parentheses -/

theorem wrapped_append_inj {name : String} {content content' r s : List Char}
    (h : wrapped name content ++ r = wrapped name content' ++ s) :
    content ++ ')' :: r = content' ++ ')' :: s := by
  simpa [wrapped] using h

theorem wrapped_quoted_inj {name a b : String} {r s : List Char}
    (h : wrapped name (quoted a) ++ r = wrapped name (quoted b) ++ s) : a = b ∧ r = s :=
  (quoted_append_inj (wrapped_append_inj h)).imp_right fun hrest => (List.cons.inj hrest).2

theorem tagged_append_inj {name : String} {tag tag' content content' r s : List Char}
    (ht : '>' ∉ tag) (ht' : '>' ∉ tag')
    (h : tagged name tag content ++ r = tagged name tag' content' ++ s) :
    tag = tag' ∧ content ++ ')' :: r = content' ++ ')' :: s := by
  have hstop : ∀ {tag : List Char}, '>' ∉ tag → ∀ c ∈ tag, (c != '>') = true := by
    intro tag htag c hc
    have : c ≠ '>' := fun he => htag (he ▸ hc)
    simpa using this
  have h : tag ++ '>' :: '(' :: (content ++ ')' :: r) =
      tag' ++ '>' :: '(' :: (content' ++ ')' :: s) := by simpa [tagged] using h
  obtain ⟨htag, hrest⟩ := append_stop_inj (hstop ht) (hstop ht') (by decide) (by decide) h
  exact ⟨htag, (List.cons.inj (List.cons.inj hrest).2).2⟩

/-! ## Forms -/

/-- The ways a value can be made. -/
inductive Form where
  | address
  | decimal
  | preciseDecimal
  | bucket
  | proof
  | expression
  | string
  | bool
  | integer
  | localId
  | enumeration
  | array
  | tuple

/-- The way a value is made. -/
def form : Value → Form
  | address _ => .address
  | decimal _ => .decimal
  | preciseDecimal _ => .preciseDecimal
  | bucket _ => .bucket
  | proof _ => .proof
  | expression _ => .expression
  | string _ => .string
  | bool _ => .bool
  | integer _ _ => .integer
  | localId _ => .localId
  | enumeration _ _ => .enumeration
  | array _ _ => .array
  | tuple _ => .tuple

/-- The way a value is made, as the first characters of its text tell. -/
def formOf : List Char → Form
  | 'A' :: 'd' :: _ => .address
  | 'A' :: 'r' :: _ => .array
  | 'B' :: _ => .bucket
  | 'D' :: _ => .decimal
  | 'E' :: 'n' :: _ => .enumeration
  | 'E' :: 'x' :: _ => .expression
  | 'N' :: _ => .localId
  | 'P' :: 'r' :: 'e' :: _ => .preciseDecimal
  | 'P' :: 'r' :: 'o' :: _ => .proof
  | 'T' :: _ => .tuple
  | '"' :: _ => .string
  | 't' :: _ | 'f' :: _ => .bool
  | _ => .integer

theorem formOf_number {c : Char} (h : isDigit c ∨ c = '-') (cs : List Char) :
    formOf (c :: cs) = .integer := by
  have hplain : "ABDENPT\"tf".toList.all fun x => !(isDigit x || x == '-') := by decide
  have hletter : ∀ x ∈ "ABDENPT\"tf".toList, c ≠ x := by
    rintro x hx rfl
    have hc := List.all_eq_true.1 hplain c hx
    rcases h with h | h <;> simp [h] at hc
  simp only [String.reduceToList, List.forall_mem_cons] at hletter
  simp [formOf, hletter]

/-- **The first characters of a text tell how its value is made.** -/
theorem formOf_chars (v : Value) (r : List Char) : formOf (v.chars ++ r) = v.form := by
  cases v with
  | integer kind i =>
    obtain ⟨c, cs, hcs, hc⟩ := exists_integerNumeral_cons i
    rw [chars, hcs]
    exact formOf_number hc _
  | bool b => cases b <;> rfl
  | _ => rfl

theorem form_eq {v w : Value} {r s : List Char} (h : v.chars ++ r = w.chars ++ s) :
    v.form = w.form := by
  rw [← formOf_chars v r, h, formOf_chars]

/-! ## Values -/

theorem true_ne_false {r s : List Char} : "true".toList ++ r ≠ "false".toList ++ s := by
  simp

theorem expression_name_inj {e e' : Expression} (h : e.name = e'.name) : e = e' := by
  cases e <;> cases e' <;> first | rfl | exact absurd h (by decide)

/-- The suffix of an integer tells its type and where it ends. -/
theorem suffix_append_inj {kind kind' : IntegerKind} {r s : List Char}
    (h : kind.suffix.toList ++ r = kind'.suffix.toList ++ s) : kind = kind' ∧ r = s := by
  cases kind <;> cases kind' <;> simp [IntegerKind.suffix] at h <;> exact ⟨rfl, h⟩

theorem exists_suffix_cons (kind : IntegerKind) (r : List Char) :
    ∃ x rest, kind.suffix.toList ++ r = x :: rest ∧ ¬isDigit x := by
  cases kind <;> exact ⟨_, _, rfl, by decide⟩

theorem integer_append_inj {kind kind' : IntegerKind} {i j : Int} {r s : List Char}
    (h : (integer kind i).chars ++ r = (integer kind' j).chars ++ s) :
    integer kind i = integer kind' j ∧ r = s := by
  obtain ⟨x, rest, hx, hstop⟩ := exists_suffix_cons kind r
  obtain ⟨y, rest', hy, hstop'⟩ := exists_suffix_cons kind' s
  rw [chars, chars, List.append_assoc, List.append_assoc, hx, hy] at h
  obtain ⟨rfl, hsuffix⟩ := integerNumeral_append_inj hstop hstop' h
  rw [← hx, ← hy] at hsuffix
  obtain ⟨rfl, rfl⟩ := suffix_append_inj hsuffix
  exact ⟨rfl, rfl⟩

/-- The text of a value is not empty, and does not close a list. -/
theorem exists_chars_cons (v : Value) : ∃ c cs, v.chars = c :: cs ∧ c ≠ ')' := by
  cases v with
  | integer kind i =>
    obtain ⟨c, cs, hcs, hc⟩ := exists_integerNumeral_cons i
    refine ⟨c, cs ++ kind.suffix.toList, by rw [chars, hcs, List.cons_append], ?_⟩
    rintro rfl
    exact absurd hc (by decide)
  | bool b => cases b <;> exact ⟨_, _, rfl, by decide⟩
  | _ => exact ⟨_, _, rfl, by decide⟩

/-- A list that is closed is its first value, and then the other ones or the end. -/
theorem listChars_cons_append (v : Value) (vs : List Value) (r : List Char) :
    listChars (v :: vs) ++ ')' :: r = v.chars ++
      if vs.isEmpty then ')' :: r else ',' :: ' ' :: (listChars vs ++ ')' :: r) := by
  cases vs <;> simp [listChars]

mutual

/-- **The text of a value tells the value and where it ends**, where no element kind in it
    holds a `>`. -/
theorem chars_append_inj : ∀ (v w : Value) {r s : List Char},
    (∀ kind ∈ v.elementKinds, '>' ∉ kind.toList) → (∀ kind ∈ w.elementKinds, '>' ∉ kind.toList) →
      v.chars ++ r = w.chars ++ s → v = w ∧ r = s
  | address a, w, _, _, _, _, h => by
    cases w with
    | address b => exact (wrapped_quoted_inj h).imp_left (congrArg address)
    | _ => cases form_eq h
  | decimal a, w, _, _, _, _, h => by
    cases w with
    | decimal b =>
      exact (wrapped_quoted_inj h).imp_left fun ht => congrArg decimal (Amount.text_inj ht)
    | _ => cases form_eq h
  | preciseDecimal a, w, _, _, _, _, h => by
    cases w with
    | preciseDecimal b =>
      exact (wrapped_quoted_inj h).imp_left fun ht => congrArg preciseDecimal (Amount.text_inj ht)
    | _ => cases form_eq h
  | bucket a, w, _, _, _, _, h => by
    cases w with
    | bucket b => exact (wrapped_quoted_inj h).imp_left (congrArg bucket)
    | _ => cases form_eq h
  | proof a, w, _, _, _, _, h => by
    cases w with
    | proof b => exact (wrapped_quoted_inj h).imp_left (congrArg proof)
    | _ => cases form_eq h
  | expression e, w, _, _, _, _, h => by
    cases w with
    | expression e' =>
      exact (wrapped_quoted_inj h).imp_left fun ht => congrArg expression (expression_name_inj ht)
    | _ => cases form_eq h
  | string a, w, _, _, _, _, h => by
    cases w with
    | string b => exact (quoted_append_inj h).imp_left (congrArg string)
    | _ => cases form_eq h
  | bool b, w, _, _, _, _, h => by
    cases w with
    | bool b' =>
      cases b <;> cases b'
      · exact ⟨rfl, List.append_cancel_left h⟩
      · exact absurd h.symm true_ne_false
      · exact absurd h true_ne_false
      · exact ⟨rfl, List.append_cancel_left h⟩
    | _ => cases form_eq h
  | integer kind i, w, _, _, _, _, h => by
    cases w with
    | integer kind' j => exact integer_append_inj h
    | _ => cases form_eq h
  | localId a, w, _, _, _, _, h => by
    cases w with
    | localId b => exact (wrapped_quoted_inj h).imp_left (congrArg localId)
    | _ => cases form_eq h
  | enumeration m vs, w, _, _, hv, hw, h => by
    cases w with
    | enumeration n ws =>
      have htag : ∀ n, '>' ∉ digits n ++ "u8".toList := by
        intro n hmem
        rcases List.mem_append.1 hmem with hmem | hmem
        · exact absurd (isDigit_of_mem_digits n _ hmem) (by decide)
        · exact absurd hmem (by decide)
      obtain ⟨hdigits, hlist⟩ := tagged_append_inj (htag m) (htag n) h
      obtain rfl := digits_inj (List.append_cancel_right hdigits)
      exact (listChars_append_inj vs ws hv hw hlist).imp_left (congrArg _)
    | _ => cases form_eq h
  | array kind vs, w, _, _, hv, hw, h => by
    cases w with
    | array kind' ws =>
      obtain ⟨hkind, hvs⟩ := List.forall_mem_cons.1 hv
      obtain ⟨hkind', hws⟩ := List.forall_mem_cons.1 hw
      obtain ⟨htag, hlist⟩ := tagged_append_inj hkind hkind' h
      obtain rfl := String.toList_inj.1 htag
      exact (listChars_append_inj vs ws hvs hws hlist).imp_left (congrArg _)
    | _ => cases form_eq h
  | tuple vs, w, _, _, hv, hw, h => by
    cases w with
    | tuple ws =>
      exact (listChars_append_inj vs ws hv hw (wrapped_append_inj h)).imp_left (congrArg _)
    | _ => cases form_eq h

/-- So does the text of a list that is closed. -/
theorem listChars_append_inj : ∀ (vs ws : List Value) {r s : List Char},
    (∀ kind ∈ elementKindsOf vs, '>' ∉ kind.toList) →
    (∀ kind ∈ elementKindsOf ws, '>' ∉ kind.toList) →
      listChars vs ++ ')' :: r = listChars ws ++ ')' :: s → vs = ws ∧ r = s
  | [], [], _, _, _, _, h => ⟨rfl, (List.cons.inj h).2⟩
  | [], w :: ws, _, _, _, _, h => by
    obtain ⟨c, cs, hcs, hc⟩ := w.exists_chars_cons
    rw [listChars_cons_append, hcs] at h
    exact absurd (List.cons.inj h).1.symm hc
  | v :: vs, [], _, _, _, _, h => by
    obtain ⟨c, cs, hcs, hc⟩ := v.exists_chars_cons
    rw [listChars_cons_append, hcs] at h
    exact absurd (List.cons.inj h).1 hc
  | v :: vs, w :: ws, _, _, hv, hw, h => by
    rw [elementKindsOf, List.forall_mem_append] at hv hw
    rw [listChars_cons_append, listChars_cons_append] at h
    obtain ⟨rfl, hrest⟩ := chars_append_inj v w hv.1 hw.1 h
    -- What follows the first value is a comma where there is a second one.
    match vs, ws, hrest with
    | [], [], hrest => exact ⟨rfl, (List.cons.inj hrest).2⟩
    | [], w' :: ws, hrest => exact absurd (List.cons.inj hrest).1 (by decide)
    | v' :: vs, [], hrest => exact absurd (List.cons.inj hrest).1 (by decide)
    | v' :: vs, w' :: ws, hrest =>
      have hlist := (List.cons.inj (List.cons.inj hrest).2).2
      exact (listChars_append_inj (v' :: vs) (w' :: ws) hv.2 hw.2 hlist).imp_left (congrArg _)

end

end Manifest.Value

namespace Manifest

open Instruction

theorem argumentLine_inj {v w : Value} (hv : ∀ kind ∈ v.elementKinds, '>' ∉ kind.toList)
    (hw : ∀ kind ∈ w.elementKinds, '>' ∉ kind.toList) (h : argumentLine v = argumentLine w) :
    v = w := by
  have hchars : v.chars ++ [] = w.chars ++ [] := by
    simpa [argumentLine, Value.text] using congrArg String.toList h
  exact (Value.chars_append_inj v w hv hw hchars).1

/-- **The text of a value tells the value.** Strings are told apart inside their quotes. Where no
    element kind holds a `>`, as none that consists of letters and digits does, values are told
    apart by their texts and by how longer texts begin, and lists of arguments by their lines. -/
theorem text_tells_value :
    (∀ a b : String, Value.quoted a = Value.quoted b → a = b) ∧
    (∀ v w : Value, (∀ kind ∈ v.elementKinds ++ w.elementKinds, '>' ∉ kind.toList) →
      (v.text = w.text → v = w) ∧
        ∀ r s : List Char, v.chars ++ r = w.chars ++ s → v = w ∧ r = s) ∧
    ∀ vs ws : List Value, (∀ v ∈ vs ++ ws, ∀ kind ∈ v.elementKinds, '>' ∉ kind.toList) →
      vs.map argumentLine = ws.map argumentLine → vs = ws := by
  refine ⟨fun a b h => ?_, fun v w hkinds => ?_, fun vs ws hkinds h => ?_⟩
  · exact (Value.quoted_append_inj (congrArg (· ++ []) h)).1
  · obtain ⟨hv, hw⟩ := List.forall_mem_append.1 hkinds
    have happend := fun r s : List Char => Value.chars_append_inj v w (r := r) (s := s) hv hw
    refine ⟨fun h => (happend [] [] ?_).1, happend⟩
    rw [String.ofList_injective h]
  · induction vs generalizing ws with
    | nil => exact (List.map_eq_nil_iff.1 h.symm).symm
    | cons v vs ih =>
      cases ws with
      | nil => simp at h
      | cons w ws =>
        rw [List.map_cons, List.map_cons, List.cons.injEq] at h
        simp only [List.cons_append, List.mem_cons, List.mem_append, or_imp, forall_and,
          forall_eq] at hkinds
        obtain ⟨hv, hvs, hw, hws⟩ := hkinds
        rw [argumentLine_inj hv hw h.1, ih ws (List.forall_mem_append.2 ⟨hvs, hws⟩) h.2]

/-- A control character and the text of its escape are told apart, also inside an array. -/
theorem text_tells_value_escapes :
    let v : Value := .array "String" [.string "\x01"]
    let w : Value := .array "String" [.string "\\u\x7b1\x7d"]
    (∀ kind ∈ v.elementKinds ++ w.elementKinds, '>' ∉ kind.toList) ∧ v.text ≠ w.text ∧
      [v, w].map argumentLine ≠ [w, v].map argumentLine := by
  intro v w
  have hkind : '>' ∉ "String".toList := by decide
  have hv : ∀ kind ∈ v.elementKinds, '>' ∉ kind.toList := List.forall_mem_singleton.2 hkind
  have hw : ∀ kind ∈ w.elementKinds, '>' ∉ kind.toList := List.forall_mem_singleton.2 hkind
  have hdiffer : v ≠ w := by simp [v, w]
  obtain ⟨-, hvalues, hlists⟩ := text_tells_value
  have hkinds := List.forall_mem_append.2 ⟨hv, hw⟩
  refine ⟨hkinds, mt (hvalues v w hkinds).1 hdiffer, mt (hlists [v, w] [w, v] ?_) ?_⟩
  · simp only [List.cons_append, List.nil_append, List.forall_mem_cons]
    exact ⟨hv, hw, hw, hv, nofun⟩
  · exact fun h => hdiffer (List.cons.inj h).1

end Manifest

end LedgerClient
