/-
  Texts that are searched, cut and put together again.

  * `exists_run_append`: a text is a run of characters of one sort and what stands behind it, and
    `takeWhile_ne_eq_iff`: a run up to a stop ends in front of it, or with the text;
  * `FirstAt p before after cs` is the first occurrence of `p` in a text, which `after?` finds
    (`after?_eq_some_iff`), and `p` is an infix of the text where there is one (`occursIn_iff`);
  * `cutAt?_eq_some_iff`: a text is cut at a stop with no other one in front of it, and
    `cutAtLast?_eq_some_iff`: at a stop with no other one behind it;
  * `Cut s pieces` says what pieces are left of a text that is cut at some of its spaces, which
    `joinWith` puts together again (`Cut.joinWith_eq`).
-/
import LedgerClient.Text.Search
import Mathlib.Data.List.Basic
import Mathlib.Data.List.TakeWhile

namespace LedgerClient.Text

/-! ## Runs -/

section Runs

variable {α : Type} {p : α → Bool} {xs ys : List α}

/-- A run of members that satisfy `p` ends where the first other one stands. -/
theorem takeWhile_append_of_head (hxs : ∀ x ∈ xs, p x) (hys : ∀ y ∈ ys.head?, ¬p y) :
    (xs ++ ys).takeWhile p = xs := by
  rw [List.takeWhile_append_of_pos hxs]
  cases ys with
  | nil => rw [List.takeWhile_nil, List.append_nil]
  | cons y ys => rw [List.takeWhile_cons_of_neg (hys y rfl), List.append_nil]

theorem dropWhile_append_of_head (hxs : ∀ x ∈ xs, p x) (hys : ∀ y ∈ ys.head?, ¬p y) :
    (xs ++ ys).dropWhile p = ys := by
  rw [List.dropWhile_append_of_pos hxs]
  cases ys with
  | nil => rfl
  | cons y ys => rw [List.dropWhile_cons_of_neg (hys y rfl)]

/-- Every list is a run and what stands behind it. -/
theorem exists_run_append (p : α → Bool) (cs : List α) :
    ∃ xs ys, (∀ x ∈ xs, p x) ∧ (∀ y ∈ ys.head?, ¬p y) ∧ cs = xs ++ ys := by
  refine ⟨cs.takeWhile p, cs.dropWhile p, List.all_eq_true.1 List.all_takeWhile, ?_,
    List.takeWhile_append_dropWhile.symm⟩
  intro y hy hp
  have := List.head?_dropWhile_not p cs
  rw [Option.mem_def.1 hy] at this
  simp [hp] at this

/-- A run up to a stop is followed by the stop, or by nothing. -/
theorem takeWhile_ne_eq_iff {stop : Char} {cs run : List Char} :
    cs.takeWhile (· != stop) = run ↔
      stop ∉ run ∧ (cs = run ∨ ∃ after, cs = run ++ stop :: after) := by
  have hrun : ∀ {run : List Char}, stop ∉ run → ∀ c ∈ run, (c != stop) = true := by
    intro run hfree c hc
    exact bne_iff_ne.2 fun he => hfree (he ▸ hc)
  constructor
  · rintro rfl
    obtain ⟨run, rest, hfree, hstop, rfl⟩ := exists_run_append (· != stop) cs
    rw [takeWhile_append_of_head hfree hstop]
    refine ⟨fun hmem => bne_iff_ne.1 (hfree stop hmem) rfl, ?_⟩
    cases rest with
    | nil => exact Or.inl (List.append_nil run)
    | cons c after =>
      obtain rfl : c = stop := by simpa using hstop c rfl
      exact Or.inr ⟨after, rfl⟩
  · rintro ⟨hfree, rfl | ⟨after, rfl⟩⟩
    · exact List.takeWhile_eq_self_iff.2 (hrun hfree)
    · exact takeWhile_append_of_head (hrun hfree) (by simp)

end Runs

/-! ## The first occurrence -/

theorem stripStart?_eq_some_iff {p cs rest : List Char} :
    stripStart? p cs = some rest ↔ cs = p ++ rest := by
  induction p generalizing cs with
  | nil => simp [stripStart?]
  | cons a p ih =>
    cases cs with
    | nil => simp [stripStart?]
    | cons c cs =>
      rw [stripStart?]
      by_cases ha : a = c
      · simp [ha, ih]
      · simp [ha, Ne.symm ha]

theorem startsWith_iff {p cs : List Char} : startsWith p cs ↔ p <+: cs := by
  rw [startsWith, Option.isSome_iff_exists]
  exact exists_congr fun rest => stripStart?_eq_some_iff.trans eq_comm

theorem stripStart?_eq_none_iff {p cs : List Char} : stripStart? p cs = none ↔ ¬p <+: cs := by
  rw [← startsWith_iff, startsWith, Option.not_isSome_iff_eq_none]

/-- What stands before and after the first occurrence of `p` in a text. -/
structure FirstAt (p before after cs : List Char) : Prop where
  eq : cs = before ++ p ++ after
  first : ∀ b a, cs = b ++ p ++ a → before.length ≤ b.length

namespace FirstAt

variable {p before after cs : List Char}

theorem unique {before' after' : List Char} (h : FirstAt p before after cs)
    (h' : FirstAt p before' after' cs) : before = before' ∧ after = after' := by
  have hlength : before.length = before'.length :=
    Nat.le_antisymm (h.first _ _ h'.eq) (h'.first _ _ h.eq)
  have heq := h.eq.symm.trans h'.eq
  rw [List.append_assoc, List.append_assoc] at heq
  obtain ⟨hbefore, hrest⟩ := List.append_inj heq hlength
  exact ⟨hbefore, List.append_cancel_left hrest⟩

theorem start (p after : List Char) : FirstAt p [] after (p ++ after) :=
  ⟨rfl, fun _ _ _ => Nat.zero_le _⟩

/-- What follows any occurrence follows the first one as well. -/
theorem suffix {b a : List Char} (h : FirstAt p before after cs) (he : cs = b ++ p ++ a) :
    a <:+ after := by
  refine List.suffix_of_suffix_length_le ⟨_, he.symm⟩ ⟨_, h.eq.symm⟩ ?_
  have hlength := congrArg List.length (he.symm.trans h.eq)
  have hle := h.first b a he
  simp only [List.length_append] at hlength
  omega

/-- An occurrence further on is the first one where there is none at the start. -/
theorem cons {c : Char} (hstart : ¬p <+: c :: cs) (h : FirstAt p before after cs) :
    FirstAt p (c :: before) after (c :: cs) := by
  refine ⟨congrArg (c :: ·) h.eq, fun b a he => ?_⟩
  cases b with
  | nil => exact absurd ⟨a, he.symm⟩ hstart
  | cons c' b => exact Nat.succ_le_succ (h.first b a (List.cons.inj he).2)

end FirstAt

/-- **What is found is what follows the first occurrence.** -/
theorem after?_eq_some_iff {p cs rest : List Char} :
    after? p cs = some rest ↔ ∃ before, FirstAt p before rest cs := by
  induction cs with
  | nil =>
    rw [after?, stripStart?_eq_some_iff]
    constructor
    · intro he
      exact ⟨[], he ▸ .start p rest⟩
    · rintro ⟨before, h⟩
      obtain ⟨hbefore, -⟩ := List.append_eq_nil_iff.1 h.eq.symm
      obtain ⟨rfl, -⟩ := List.append_eq_nil_iff.1 hbefore
      exact h.eq
  | cons c cs ih =>
    rw [after?]
    cases hstrip : stripStart? p (c :: cs) with
    | some rest' =>
      have hstart := stripStart?_eq_some_iff.1 hstrip
      have hfirst : FirstAt p [] rest' (c :: cs) := hstart ▸ .start p rest'
      constructor
      · intro he
        obtain rfl := Option.some.inj he
        exact ⟨[], hfirst⟩
      · rintro ⟨before, h⟩
        rw [(hfirst.unique h).2]
    | none =>
      have hstart := stripStart?_eq_none_iff.1 hstrip
      rw [ih]
      constructor
      · rintro ⟨before, h⟩
        exact ⟨c :: before, h.cons hstart⟩
      · rintro ⟨before, h⟩
        cases before with
        | nil => exact absurd ⟨rest, h.eq.symm⟩ hstart
        | cons c' before =>
          obtain ⟨rfl, hcs⟩ := List.cons.inj h.eq
          refine ⟨before, hcs, fun b a he => ?_⟩
          exact Nat.le_of_succ_le_succ (h.first (c :: b) a (congrArg (c :: ·) he))

theorem after?_eq_none_iff {p cs : List Char} : after? p cs = none ↔ ¬p <:+: cs := by
  induction cs with
  | nil => rw [after?, stripStart?_eq_none_iff, List.prefix_nil, List.infix_nil]
  | cons c cs ih =>
    rw [after?, List.infix_cons_iff, not_or, ← ih, ← stripStart?_eq_none_iff]
    cases stripStart? p (c :: cs) <;> simp

theorem occursIn_iff {p cs : List Char} : occursIn p cs ↔ p <:+: cs := by
  rw [← Decidable.not_iff_not, ← after?_eq_none_iff, occursIn, Option.not_isSome_iff_eq_none]

/-- Where a text occurs, it occurs for the first time. -/
theorem exists_firstAt {p cs : List Char} (h : p <:+: cs) :
    ∃ before after, FirstAt p before after cs := by
  cases hafter : after? p cs with
  | none => exact absurd h (after?_eq_none_iff.1 hafter)
  | some rest =>
    obtain ⟨before, hfirst⟩ := after?_eq_some_iff.1 hafter
    exact ⟨before, rest, hfirst⟩

/-! ## The first stop -/

theorem cutAt?_eq_none_iff {stop : Char} {cs : List Char} : cutAt? stop cs = none ↔ stop ∉ cs := by
  induction cs with
  | nil => simp [cutAt?]
  | cons c cs ih =>
    rw [cutAt?, List.mem_cons, not_or]
    by_cases hc : c = stop
    · simp [hc]
    · simp [hc, ih, Ne.symm hc]

/-- **A text is cut at a stop with no other one in front of it.** -/
theorem cutAt?_eq_some_iff {stop : Char} {cs a b : List Char} :
    cutAt? stop cs = some (a, b) ↔ cs = a ++ stop :: b ∧ stop ∉ a := by
  induction cs generalizing a with
  | nil => simp [cutAt?]
  | cons c cs ih =>
    rw [cutAt?]
    by_cases hc : c = stop
    · rw [if_pos hc]
      cases a with
      | nil => simp [hc]
      | cons c' a =>
        refine ⟨nofun, fun ⟨he, hfree⟩ => absurd ?_ hfree⟩
        rw [← (List.cons.inj he).1, hc]
        exact List.mem_cons_self
    · rw [if_neg hc, Option.map_eq_some_iff]
      cases a with
      | nil => simp [hc]
      | cons c' a =>
        constructor
        · rintro ⟨⟨a', b'⟩, hcut, he⟩
          obtain ⟨⟨rfl, rfl⟩, rfl⟩ := by simpa using he
          obtain ⟨rfl, hfree⟩ := ih.1 hcut
          exact ⟨rfl, by simpa [Ne.symm hc] using hfree⟩
        · rintro ⟨he, hfree⟩
          obtain ⟨rfl, rfl⟩ := List.cons.inj he
          exact ⟨(a, b), ih.2 ⟨rfl, fun h => hfree (List.mem_cons_of_mem _ h)⟩, rfl⟩

/-! ## The last stop -/

theorem cutAtLast?_eq_none_iff {stop : Char} {cs : List Char} :
    cutAtLast? stop cs = none ↔ stop ∉ cs := by
  induction cs with
  | nil => simp [cutAtLast?]
  | cons c cs ih =>
    rw [cutAtLast?, List.mem_cons, not_or]
    cases hcut : cutAtLast? stop cs with
    | some p =>
      have hmem : ¬stop ∉ cs := fun h => by simp [ih.2 h] at hcut
      simp [hmem]
    | none =>
      have hfree := ih.1 hcut
      by_cases hc : c = stop
      · simp [hc]
      · simp [hc, hfree, Ne.symm hc]

/-- **A text is cut at a stop with no other one behind it.** -/
theorem cutAtLast?_eq_some_iff {stop : Char} {cs a b : List Char} :
    cutAtLast? stop cs = some (a, b) ↔ cs = a ++ stop :: b ∧ stop ∉ b := by
  induction cs generalizing a with
  | nil => simp [cutAtLast?]
  | cons c cs ih =>
    rw [cutAtLast?]
    cases hcut : cutAtLast? stop cs with
    | some p =>
      obtain ⟨a', b'⟩ := p
      have hmem : stop ∈ cs := by
        by_contra h
        simp [cutAtLast?_eq_none_iff.2 h] at hcut
      constructor
      · intro h
        obtain ⟨rfl, rfl⟩ := by simpa using h
        obtain ⟨rfl, hfree⟩ := ih.1 hcut
        exact ⟨rfl, hfree⟩
      · rintro ⟨he, hfree⟩
        rcases List.cons_eq_append_iff.1 he with ⟨rfl, hb⟩ | ⟨a, rfl, hcs⟩
        · obtain ⟨-, rfl⟩ := List.cons.inj hb
          exact absurd hmem hfree
        · have := hcut.symm.trans (ih.2 ⟨hcs, hfree⟩)
          simpa using this
    | none =>
      have hfree := cutAtLast?_eq_none_iff.1 hcut
      constructor
      · intro h
        by_cases hc : c = stop
        · obtain ⟨rfl, rfl⟩ := by simpa [hc] using h
          exact ⟨by rw [hc]; rfl, hfree⟩
        · simp [hc] at h
      · rintro ⟨he, -⟩
        rcases List.cons_eq_append_iff.1 he with ⟨rfl, he⟩ | ⟨a, rfl, rfl⟩
        · obtain ⟨rfl, rfl⟩ := List.cons.inj he
          simp
        · exact absurd (List.mem_append_right _ List.mem_cons_self) hfree

/-! ## Pieces -/

/-- The pieces of a text that is cut at some of its spaces, or at none. -/
inductive Cut : String → List String → Prop
  | whole {s : String} : Cut s [s]
  | space {s rest : String} {pieces : List String} : Cut rest pieces →
      Cut (s ++ " " ++ rest) (s :: pieces)

namespace Cut

variable {s : String} {pieces : List String}

theorem ne_nil (h : Cut s pieces) : pieces ≠ [] := by
  cases h <;> simp

/-- The pieces of a text are put together to the text. -/
theorem joinWith_eq (h : Cut s pieces) : joinWith " " pieces = s := by
  induction h with
  | whole => rfl
  | @space s rest pieces h ih =>
    cases pieces with
    | nil => exact absurd rfl h.ne_nil
    | cons piece pieces => rw [joinWith, ih]; simp

end Cut

end LedgerClient.Text
