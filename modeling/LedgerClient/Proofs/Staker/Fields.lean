/-
  The fields of a staker's badge.

  * `HoldsAmount raw a` and `HoldsEpoch raw e`: the text of a field is a number with decorations
    around it, behind an epoch also the suffix of its type, once or more;
  * `dropSuffix_eq_iff`: which suffixes are dropped, and `suffix_iff`: which numbers look like one;
  * `ofFields_eq_ok_iff`: a position is read from the fields that hold it, and from no others;
    what is no position is a mismatch (`ofFields_mayMismatch`), unless an amount in it
    `Overruns`.
-/
import LedgerClient.Staker
import LedgerClient.Proofs.Amount.Canonical
import LedgerClient.Proofs.Scan

namespace LedgerClient

open Text

namespace StakerInfo

/-! ## Amounts -/

/-- The text is a number with decorations around it, and stands for the amount. -/
def HoldsAmount (raw : String) (a : Amount) : Prop :=
  ∃ n, Decorated n raw.toList ∧ Amount.Denotes n a.atto

theorem parse_stripDecorations_iff {raw : String} {a : Amount} :
    Amount.parse (stripDecorations raw) = .ok a ↔ HoldsAmount raw a := by
  rw [Amount.parse_eq_ok_iff, trimChars_eq_self (digitEnds_stripDecorations raw)]
  constructor
  · exact fun h => ⟨_, decorated_stripDecorations raw, h⟩
  · rintro ⟨n, hn, h⟩
    rwa [stripDecorations_eq_iff.2 ⟨h.digitEnds, hn⟩]

/-- The places of the amounts. -/
def amountPlaces : List Nat :=
  [2, 4, 5]

/-- One of the amounts stops the program, its decorations taken off. -/
def Overruns (fields : List String) : Prop :=
  ∃ place ∈ amountPlaces, ∃ raw, fields[place]? = some raw ∧
    Amount.Overruns (stripDecorations raw)

/-- A record without digits of other scripts stops nothing. -/
theorem not_overruns {fields : List String}
    (h : ∀ raw ∈ fields, ∀ c ∈ raw.toList, isDecimalDigit c → isDigit c) : ¬Overruns fields := by
  rintro ⟨place, -, raw, hraw, hlong⟩
  rw [Amount.Overruns, trimChars_eq_self (digitEnds_stripDecorations raw)] at hlong
  refine Amount.not_overlong (fun c hc => h raw (List.mem_of_getElem? hraw) c ?_) hlong
  obtain ⟨front, back, hsplit, -, -⟩ := decorated_stripDecorations raw
  simp [hsplit, hc]

/-! ## Suffixes -/

/-- The suffix of an epoch's type. -/
def suffix : List Char :=
  ['u', '6', '4']

/-- Nothing but the suffix, any number of times. -/
inductive Suffixes : List Char → Prop
  | none : Suffixes []
  | more {cs : List Char} : Suffixes cs → Suffixes (cs ++ suffix)

theorem exists_dropReversedSuffix (rs : List Char) :
    ¬suffix.reverse <+: dropReversedSuffix rs ∧
      ∃ tail, Suffixes tail ∧ rs.reverse = (dropReversedSuffix rs).reverse ++ tail := by
  fun_induction dropReversedSuffix rs with
  | case1 rest ih =>
    obtain ⟨hnot, tail, htail, heq⟩ := ih
    refine ⟨hnot, tail ++ suffix, htail.more, ?_⟩
    rw [← List.append_assoc, ← heq]
    simp [suffix]
  | case2 cs hnot =>
    refine ⟨?_, [], .none, (List.append_nil _).symm⟩
    rintro ⟨rest, rfl⟩
    exact hnot rest rfl

theorem dropReversedSuffix_eq_self {rs : List Char} (h : ¬suffix.reverse <+: rs) :
    dropReversedSuffix rs = rs := by
  unfold dropReversedSuffix
  split
  · exact absurd ⟨_, rfl⟩ h
  · rfl

theorem dropReversedSuffix_append {cs tail : List Char} (h : ¬suffix <:+ cs)
    (htail : Suffixes tail) : dropReversedSuffix (cs ++ tail).reverse = cs.reverse := by
  induction htail with
  | none =>
    rw [List.append_nil, dropReversedSuffix_eq_self]
    rwa [List.reverse_prefix]
  | more _ ih =>
    rw [← List.append_assoc, List.reverse_append]
    exact ih

/-- **What is left without its suffixes** does not end with one. -/
theorem dropSuffix_eq_iff {s : String} {cs : List Char} :
    (dropSuffix s).toList = cs ↔
      ¬suffix <:+ cs ∧ ∃ tail, Suffixes tail ∧ s.toList = cs ++ tail := by
  rw [dropSuffix, String.toList_ofList]
  constructor
  · rintro rfl
    obtain ⟨hnot, tail, htail, heq⟩ := exists_dropReversedSuffix s.toList.reverse
    rw [List.reverse_reverse] at heq
    refine ⟨?_, tail, htail, heq⟩
    rwa [← List.reverse_prefix, List.reverse_reverse]
  · rintro ⟨hnot, tail, htail, heq⟩
    rw [heq, dropReversedSuffix_append hnot htail, List.reverse_reverse]

/-- **A text ends like the suffix** just where the number 64 ends it and stands behind a `u`. -/
theorem suffix_iff {front n back : List Char} (hfront : IsDecoration front) (hn : IsNumeral n)
    (hback : IsDecoration back) :
    suffix <:+ front ++ n ++ back ↔ back = [] ∧ front.getLast? = some 'u' ∧ n = ['6', '4'] := by
  constructor
  · rintro ⟨before, heq⟩
    -- the last character is a digit, so no decoration ends the text
    obtain rfl : back = [] := by
      by_contra hne
      have hlast := congrArg List.getLast? heq
      rw [List.getLast?_append_of_ne_nil _ hne] at hlast
      exact absurd (hback '4' (List.mem_of_getLast? (hlast.symm.trans (by simp [suffix]))))
        (by decide)
    refine ⟨rfl, ?_⟩
    rw [List.append_nil] at heq
    obtain ⟨part, -, rfl⟩ | ⟨part, rfl, hpart⟩ := List.append_eq_append_iff.1 heq.symm
    · exact absurd (hn.2 'u' (by simp [suffix])) (by decide)
    -- the digits of the suffix are those of the number, and its letter is not
    match part, hpart with
    | [], hpart =>
      rw [List.nil_append] at hpart
      exact absurd (hn.2 'u' (hpart ▸ List.mem_cons_self)) (by decide)
    | [c], hpart =>
      obtain ⟨rfl, rfl⟩ := List.cons.inj hpart
      exact ⟨List.getLast?_concat, rfl⟩
    | c :: d :: part, hpart =>
      obtain ⟨-, hpart⟩ := List.cons.inj hpart
      obtain ⟨rfl, -⟩ := List.cons.inj hpart
      exact absurd (hfront '6' (by simp)) (by decide)
  · rintro ⟨rfl, hlast, rfl⟩
    obtain ⟨before, rfl⟩ := List.getLast?_eq_some_iff.1 hlast
    exact ⟨before, by simp [suffix]⟩

/-! ## Epochs -/

/-- The text is a number with decorations around it, and the suffix of its type may stand behind
    it, more than once too. -/
def HoldsEpoch (raw : String) (epoch : Nat) : Prop :=
  ∃ cs tail n, raw.toList = cs ++ tail ∧ Suffixes tail ∧ ¬suffix <:+ cs ∧ Decorated n cs ∧
    IsNumeral n ∧ valueOf n = epoch ∧ epoch < twoTo 64

/-- No sign is left in front of a number. -/
theorem bounded?_stripDecorations_iff {limit n : Nat} {s : String} :
    bounded? limit (stripDecorations s) = some n ↔
      ∃ cs, Decorated cs s.toList ∧ IsNumeral cs ∧ valueOf cs = n ∧ n < limit := by
  rw [bounded?_eq_some_iff]
  constructor
  · rintro ⟨cs, hcs | hplus, h⟩
    · exact ⟨cs, hcs ▸ decorated_stripDecorations s, h⟩
    · have hhead := (digitEnds_stripDecorations s).head '+' (by rw [hplus]; rfl)
      exact absurd hhead (by decide)
  · rintro ⟨cs, hcs, h⟩
    exact ⟨cs, Or.inl (stripDecorations_eq_iff.2 ⟨digitEnds_of_isNumeral h.1, hcs⟩), h⟩

theorem bounded?_dropSuffix_iff {raw : String} {epoch : Nat} :
    bounded? (twoTo 64) (stripDecorations (dropSuffix raw)) = some epoch ↔
      HoldsEpoch raw epoch := by
  rw [bounded?_stripDecorations_iff]
  constructor
  · rintro ⟨n, hn, h⟩
    obtain ⟨hnot, tail, htail, heq⟩ := dropSuffix_eq_iff.1 (rfl : (dropSuffix raw).toList = _)
    exact ⟨_, tail, n, heq, htail, hnot, hn, h⟩
  · rintro ⟨cs, tail, n, heq, htail, hnot, hn, h⟩
    refine ⟨n, ?_, h⟩
    rwa [dropSuffix_eq_iff.2 ⟨hnot, tail, htail, heq⟩]

/-! ## Reading -/

section Reading

variable {fields : List String} {place : Nat} {name : String}

theorem field_eq_ok_iff {raw : String} :
    field fields place name = .ok raw ↔ fields[place]? = some raw := by
  unfold field
  cases fields[place]? <;> simp

theorem amount_eq_ok_iff {a : Amount} :
    amount fields place name = .ok a ↔ ∃ raw, fields[place]? = some raw ∧ HoldsAmount raw a := by
  constructor
  · intro h
    obtain ⟨raw, hraw, h⟩ := exists_of_bind_ok h
    exact ⟨raw, field_eq_ok_iff.1 hraw,
      parse_stripDecorations_iff.1 (Amount.parseOr_eq_ok_iff.1 h)⟩
  · rintro ⟨raw, hraw, h⟩
    have hparse := parse_stripDecorations_iff.2 h
    simp only [amount, field_eq_ok_iff.2 hraw, bind, Except.bind, Amount.parseOr_eq_ok_iff.2 hparse]

theorem epoch_eq_ok_iff {e : Nat} :
    epoch fields place name = .ok e ↔ ∃ raw, fields[place]? = some raw ∧ HoldsEpoch raw e := by
  constructor
  · intro h
    obtain ⟨raw, hraw, h⟩ := exists_of_bind_ok h
    refine ⟨raw, field_eq_ok_iff.1 hraw, bounded?_dropSuffix_iff.1 ?_⟩
    split at h
    · rename_i hread
      rw [hread, Except.ok.inj h]
    · cases h
  · rintro ⟨raw, hraw, h⟩
    simp only [epoch, field_eq_ok_iff.2 hraw, bind, Except.bind, bounded?_dropSuffix_iff.2 h]

theorem field_mayMismatch : MayMismatch (field fields place name) := by
  unfold field
  cases fields[place]?
  · exact rfl
  · exact trivial

theorem amount_mayMismatch
    (h : ∀ raw, fields[place]? = some raw → ¬Amount.Overruns (stripDecorations raw)) :
    MayMismatch (amount fields place name) := by
  refine (Yields.self fun e he => field_mayMismatch.error he).bind fun raw hraw => ?_
  have hfit := h raw (field_eq_ok_iff.1 hraw)
  -- what the decorations are makes no difference from here on
  generalize stripDecorations raw = text at hfit ⊢
  exact Amount.parseOr_mayMismatch hfit

theorem epoch_mayMismatch : MayMismatch (epoch fields place name) := by
  refine field_mayMismatch.bind fun raw _ => ?_
  cases bounded? (twoTo 64) (stripDecorations (dropSuffix raw))
  · exact rfl
  · exact trivial

/-- What is no position is a mismatch, where none of its amounts stops the program. -/
theorem ofFields_mayMismatch (h : ¬Overruns fields) : MayMismatch (ofFields fields) := by
  have hamount : ∀ place ∈ amountPlaces, ∀ name, MayMismatch (amount fields place name) :=
    fun place hplace name => amount_mayMismatch fun raw hraw hlong =>
      h ⟨place, hplace, raw, hraw, hlong⟩
  exact epoch_mayMismatch.bind fun _ _ => field_mayMismatch.bind fun _ _ =>
    field_mayMismatch.bind fun _ _ => (hamount 2 (by decide) _).bind fun _ _ =>
      (hamount 4 (by decide) _).bind fun _ _ => (hamount 5 (by decide) _).bind fun _ _ => trivial

end Reading

/-- Six fields or more. -/
theorem exists_six {fields : List String} (h : 5 < fields.length) :
    ∃ v n u t w k more, fields = v :: n :: u :: t :: w :: k :: more := by
  obtain _ | ⟨v, _ | ⟨n, _ | ⟨u, _ | ⟨t, _ | ⟨w, _ | ⟨k, more⟩⟩⟩⟩⟩⟩ := fields
  case cons.cons.cons.cons.cons.cons => exact ⟨v, n, u, t, w, k, more, rfl⟩
  all_goals
    simp only [List.length_cons, List.length_nil] at h
    omega

/-- The fields hold the validator, its name and the four numbers of the position. -/
def Holds (fields : List String) (s : StakerInfo) : Prop :=
  ∃ unstaking epoch withdrawable staked more,
    fields = s.validator :: s.validatorName :: unstaking :: epoch :: withdrawable :: staked ::
      more ∧
    HoldsAmount unstaking s.unstaking ∧ HoldsEpoch epoch s.unstakeDoneEpoch ∧
    HoldsAmount withdrawable s.withdrawable ∧ HoldsAmount staked s.staked

/-- **A position is read from the fields that hold it**, and from no others. -/
theorem ofFields_eq_ok_iff {fields : List String} {s : StakerInfo} :
    ofFields fields = .ok s ↔ Holds fields s := by
  constructor
  · intro h
    obtain ⟨e, hepoch, h⟩ := exists_of_bind_ok h
    obtain ⟨validator, hvalidator, h⟩ := exists_of_bind_ok h
    obtain ⟨validatorName, hname, h⟩ := exists_of_bind_ok h
    obtain ⟨x, hunstaking, h⟩ := exists_of_bind_ok h
    obtain ⟨y, hwithdrawable, h⟩ := exists_of_bind_ok h
    obtain ⟨z, hstaked, h⟩ := exists_of_bind_ok h
    obtain rfl := Except.ok.inj h
    obtain ⟨raw₃, h₃, hepoch⟩ := epoch_eq_ok_iff.1 hepoch
    obtain ⟨raw₂, h₂, hunstaking⟩ := amount_eq_ok_iff.1 hunstaking
    obtain ⟨raw₄, h₄, hwithdrawable⟩ := amount_eq_ok_iff.1 hwithdrawable
    obtain ⟨raw₅, h₅, hstaked⟩ := amount_eq_ok_iff.1 hstaked
    have h₀ := field_eq_ok_iff.1 hvalidator
    have h₁ := field_eq_ok_iff.1 hname
    obtain ⟨v, n, u, t, w, k, more, rfl⟩ := exists_six (List.getElem?_eq_some_iff.1 h₅).1
    obtain rfl := Option.some.inj h₀
    obtain rfl := Option.some.inj h₁
    obtain rfl := Option.some.inj h₂
    obtain rfl := Option.some.inj h₃
    obtain rfl := Option.some.inj h₄
    obtain rfl := Option.some.inj h₅
    exact ⟨u, t, w, k, more, rfl, hunstaking, hepoch, hwithdrawable, hstaked⟩
  · rintro ⟨u, t, w, k, more, rfl, hunstaking, hepoch, hwithdrawable, hstaked⟩
    rw [ofFields, epoch_eq_ok_iff.2 ⟨t, rfl, hepoch⟩, field_eq_ok_iff.2 rfl, field_eq_ok_iff.2 rfl,
      amount_eq_ok_iff.2 ⟨u, rfl, hunstaking⟩, amount_eq_ok_iff.2 ⟨w, rfl, hwithdrawable⟩,
      amount_eq_ok_iff.2 ⟨k, rfl, hstaked⟩]
    rfl

end StakerInfo

end LedgerClient
