/-
  Patterns with groups, and the match in a text that counts.

  * A `Pattern` is a row of pieces: a certain character, or a group of characters other than a
    certain one, as many of them as possible;
  * `matchesAt` are all matches at the start of a text, told by what their groups hold, and
    `groups?` is the match that counts: the leftmost one, and of several there the one with the
    longest groups;
  * `groups?_literal`: where a pattern begins with a certain text, only the first occurrence of
    that text counts, provided that what follows it in the pattern matches at no later place where
    it did not match before (`Lasts`);
  * `groups?_toStop` and `groups?_toEnd`: so such a pattern is a search for its beginning and, in
    what follows, for the next stop;
  * `groups?_map`: characters that a pattern does not mention may be replaced.
-/
import LedgerClient.Proofs.Text.Search
import Mathlib.Data.List.Infix

namespace LedgerClient.Text

/-- A piece of a pattern. -/
inductive Piece where
  /-- this character -/
  | char (c : Char)
  /-- a group of characters other than this one, of any length -/
  | others (stop : Char)
deriving DecidableEq

/-- The character that a piece mentions. -/
def Piece.mark : Piece → Char
  | char c | others c => c

/-- Pieces, one after the other. -/
abbrev Pattern := List Piece

namespace Pattern

/-! ## Matches -/

/-- The ways to take characters other than `stop` off the start of a text: what is taken and what
    is left, the longest first. -/
def runs (stop : Char) : List Char → List (List Char × List Char)
  | [] => [([], [])]
  | c :: cs =>
    if c = stop then [([], c :: cs)]
    else (runs stop cs).map (Prod.map (c :: ·) id) ++ [([], c :: cs)]

/-- What the groups hold in each match at the start of a text, the preferred match first: of two
    matches the one in which the first group to differ is the longer one. -/
def matchesAt : Pattern → List Char → List (List (List Char))
  | [], _ => [[]]
  | .char _ :: _, [] => []
  | .char c :: p, d :: cs => if c = d then matchesAt p cs else []
  | .others stop :: p, cs => (runs stop cs).flatMap fun run => (matchesAt p run.2).map (run.1 :: ·)

/-- What the groups hold in the match that counts: the leftmost one, and of several there the
    preferred one. -/
def groups? (p : Pattern) (cs : List Char) : Option (List (List Char)) :=
  (cs.tails.flatMap p.matchesAt).head?

/-- The pieces of a certain text. -/
def literal (text : List Char) : Pattern :=
  text.map .char

variable {p q : Pattern} {stop : Char}

theorem groups?_nil (p : Pattern) : p.groups? [] = (p.matchesAt []).head? := by
  simp [groups?]

theorem groups?_cons (p : Pattern) (c : Char) (cs : List Char) :
    p.groups? (c :: cs) = (p.matchesAt (c :: cs)).head?.or (p.groups? cs) := by
  rw [groups?, List.tails_cons, List.flatMap_cons, List.head?_append, groups?]

/-- What follows a text in a pattern matches behind it. -/
theorem matchesAt_literal (text : List Char) (q : Pattern) (cs : List Char) :
    matchesAt (literal text ++ q) cs = (stripStart? text cs).elim [] q.matchesAt := by
  induction text generalizing cs with
  | nil => rfl
  | cons a text ih =>
    cases cs with
    | nil => rfl
    | cons c cs =>
      show (if a = c then matchesAt (literal text ++ q) cs else []) = _
      rw [stripStart?]
      by_cases ha : a = c
      · rw [if_pos ha, if_pos ha, ih]
      · rw [if_neg ha, if_neg ha, Option.elim_none]

/-! ## The first occurrence decides -/

/-- Where the pattern does not match, it matches at no later place either. -/
def Lasts (p : Pattern) : Prop :=
  ∀ cs rest, rest <:+ cs → p.matchesAt cs = [] → p.matchesAt rest = []

/-- **Only the first occurrence of what a pattern begins with counts.** If there is no match
    there, there is none at a later occurrence. -/
theorem groups?_literal (hq : q.Lasts) (text cs : List Char) :
    groups? (literal text ++ q) cs = (after? text cs).bind fun rest => (q.matchesAt rest).head? := by
  induction cs with
  | nil =>
    rw [groups?_nil, matchesAt_literal, after?]
    cases stripStart? text [] <;> rfl
  | cons c cs ih =>
    rw [groups?_cons, matchesAt_literal, after?]
    cases hstrip : stripStart? text (c :: cs) with
    | none => rw [Option.elim_none, List.head?_nil, Option.none_or, ih]
    | some rest =>
      rw [Option.elim_some, Option.bind_some]
      cases hmatches : q.matchesAt rest with
      | cons held others => rfl
      | nil =>
        -- a later occurrence has less behind it
        have hfirst : FirstAt text [] rest (c :: cs) :=
          stripStart?_eq_some_iff.1 hstrip ▸ .start text rest
        rw [ih, List.head?_nil, Option.none_or, Option.bind_eq_none_iff]
        intro rest' hafter
        obtain ⟨before, hlater⟩ := after?_eq_some_iff.1 hafter
        have he : c :: cs = (c :: before) ++ text ++ rest' := congrArg (c :: ·) hlater.eq
        rw [hq rest rest' (hfirst.suffix he) hmatches, List.head?_nil]

/-! ## Groups up to a stop -/

theorem head?_runs (stop : Char) (cs : List Char) :
    (runs stop cs).head? = some (cs.takeWhile (· != stop), cs.dropWhile (· != stop)) := by
  induction cs with
  | nil => rfl
  | cons c cs ih =>
    rw [runs]
    by_cases hc : c = stop
    · simp [hc]
    · simp [hc, List.head?_append, ih, Prod.map]

/-- The end of a text is matched by the longest group. -/
theorem head?_matchesAt_toEnd (stop : Char) (cs : List Char) :
    (matchesAt [.others stop] cs).head? = some [cs.takeWhile (· != stop)] := by
  have hmatches : matchesAt [.others stop] cs = (runs stop cs).map fun run => [run.1] :=
    List.flatMap_pure_eq_map _ _
  rw [hmatches, List.head?_map, head?_runs, Option.map_some]

/-- A group begins with the next character, or it holds nothing. -/
theorem matchesAt_others_cons {c : Char} (hc : c ≠ stop) (q : Pattern) (cs : List Char) :
    matchesAt (.others stop :: q) (c :: cs) =
      (matchesAt (.others stop :: q) cs).map (List.modifyHead (c :: ·)) ++
        (matchesAt q (c :: cs)).map ([] :: ·) := by
  rw [matchesAt, runs, if_neg hc, List.flatMap_append, List.flatMap_map, List.flatMap_singleton,
    matchesAt, List.map_flatMap]
  congr 2
  funext run
  rw [List.map_map]
  rfl

/-- A stop is matched by the group in front of the first one, as the group holds none. -/
theorem matchesAt_toStop (stop : Char) (cs : List Char) :
    matchesAt [.others stop, .char stop] cs =
      (cutAt? stop cs).elim [] fun cut => [[cut.1]] := by
  induction cs with
  | nil => rfl
  | cons c cs ih =>
    rw [cutAt?]
    by_cases hc : c = stop
    · simp [matchesAt, runs, hc]
    · have hstart : matchesAt [.char stop] (c :: cs) = [] := if_neg (Ne.symm hc)
      rw [matchesAt_others_cons hc, hstart, if_neg hc, ih, List.map_nil, List.append_nil]
      cases cutAt? stop cs <;> rfl

theorem lasts_toEnd (stop : Char) : Lasts [.others stop] := by
  intro cs rest _ hnone
  have hsome := head?_matchesAt_toEnd stop cs
  rw [hnone] at hsome
  cases hsome

theorem lasts_toStop (stop : Char) : Lasts [.others stop, .char stop] := by
  have hnil : ∀ cs, matchesAt [.others stop, .char stop] cs = [] ↔ stop ∉ cs := by
    intro cs
    rw [matchesAt_toStop, ← cutAt?_eq_none_iff]
    cases cutAt? stop cs <;> simp
  intro cs rest hsuffix hnone
  rw [hnil] at hnone ⊢
  exact fun hmem => hnone (hsuffix.subset hmem)

/-- **A group in front of a stop is found by a search**: for what the pattern begins with, and for
    the next stop. -/
theorem groups?_toStop (text : List Char) (stop : Char) (cs : List Char) :
    groups? (literal text ++ [.others stop, .char stop]) cs =
      ((after? text cs).bind fun rest => cutAt? stop rest).map fun cut => [cut.1] := by
  rw [groups?_literal (lasts_toStop stop), Option.map_bind]
  congr 1
  funext rest
  rw [matchesAt_toStop, Function.comp_apply]
  cases cutAt? stop rest <;> rfl

/-- What begins within the group belongs to it. -/
example : groups? (literal "say(".toList ++ [.others ')', .char ')']) "I say(a say(b) c)".toList =
    some ["a say(b".toList] := by
  decide

/-- **A group at the end of a pattern is found by a search**: for what the pattern begins with, and
    for the next stop or the end of the text. -/
theorem groups?_toEnd (text : List Char) (stop : Char) (cs : List Char) :
    groups? (literal text ++ [.others stop]) cs =
      (after? text cs).map fun rest => [rest.takeWhile (· != stop)] := by
  rw [groups?_literal (lasts_toEnd stop), Option.map_eq_bind]
  congr 1
  funext rest
  exact head?_matchesAt_toEnd stop rest

/-! ## Other characters -/

/-- The replacement of characters leaves those alone that a pattern mentions, and puts none of them
    in the place of another character. -/
def Spares (f : Char → Char) (p : Pattern) : Prop :=
  ∀ piece ∈ p, ∀ c, f c = piece.mark ↔ c = piece.mark

variable {f : Char → Char}

theorem runs_map (hf : ∀ c, f c = stop ↔ c = stop) (cs : List Char) :
    runs stop (cs.map f) = (runs stop cs).map (Prod.map (List.map f) (List.map f)) := by
  induction cs with
  | nil => rfl
  | cons c cs ih =>
    rw [List.map_cons, runs, runs]
    by_cases hc : c = stop
    · rw [if_pos hc, if_pos ((hf c).2 hc)]
      rfl
    · rw [if_neg hc, if_neg (mt (hf c).1 hc), ih]
      simp [Function.comp_def, Prod.map]

theorem matchesAt_map (hf : Spares f p) (cs : List Char) :
    p.matchesAt (cs.map f) = (p.matchesAt cs).map (List.map (List.map f)) := by
  induction p generalizing cs with
  | nil => rfl
  | cons piece p ih =>
    obtain ⟨hpiece, hp⟩ := List.forall_mem_cons.1 hf
    cases piece with
    | char c =>
      cases cs with
      | nil => rfl
      | cons d cs =>
        have hd : c = f d ↔ c = d := eq_comm.trans ((hpiece d).trans eq_comm)
        rw [List.map_cons, matchesAt, matchesAt]
        by_cases hc : c = d
        · rw [if_pos hc, if_pos (hd.2 hc), ih hp]
        · rw [if_neg hc, if_neg (mt hd.1 hc), List.map_nil]
    | others stop =>
      have hstop : ∀ c, f c = stop ↔ c = stop := hpiece
      rw [matchesAt, matchesAt, runs_map hstop, List.flatMap_map, List.map_flatMap]
      congr 1
      funext run
      simp [ih hp, Function.comp_def]

/-- **Characters that a pattern does not mention make no difference to its match.** -/
theorem groups?_map (hf : Spares f p) (cs : List Char) :
    p.groups? (cs.map f) = (p.groups? cs).map (List.map (List.map f)) := by
  rw [groups?, groups?, List.map_tails, List.flatMap_map, ← List.head?_map, List.map_flatMap]
  simp only [matchesAt_map hf]

end Pattern

end LedgerClient.Text
