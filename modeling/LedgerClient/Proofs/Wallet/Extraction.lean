/-
  Reasons by patterns.

  * `panicPattern` and `resourcePattern` are what the errors of the engine look like, and
    `matchedReason?` is what the group holds in the match that counts, unless that is nothing;
  * `groups?_panicPattern` and `groups?_resourcePattern`: what is matched is what is found by a
    search for the beginning;
  * `Found cs found` says case by case what such a search comes to, and `found_iff` that it comes
    to one thing;
  * `reason_at_first_occurrence`: so a reason stands at the first occurrence of its beginning, and
    line breaks make no difference to it.
-/
import LedgerClient.Proofs.Text.Pattern
import LedgerClient.Proofs.Wallet.Reason

namespace LedgerClient.Wallet

open Text Text.Pattern

/-! ## Patterns -/

/-- A panic: its beginning, the reason, and the `@` in front of its place. -/
def panicPattern : Pattern :=
  literal panicOpening ++ [.others '@', .char '@']

/-- A resource error: its beginning and the reason, for which no closing bracket is needed. -/
def resourcePattern : Pattern :=
  literal resourceOpening ++ [.others ')']

/-- What the first group of a match holds, unless that is nothing. -/
def firstGroup? (groups : Option (List (List Char))) : Option String :=
  ((groups.bind List.head?).map String.ofList).filter (· ≠ "")

/-- The reason by the patterns: that of a panic, or else that of a resource error. -/
def matchedReason? (raw : String) : Option String :=
  firstGroup? (panicPattern.groups? raw.toList <|> resourcePattern.groups? raw.toList)

/-- The characters that the patterns mention. -/
def marks : List Char :=
  (panicPattern ++ resourcePattern).map Piece.mark

theorem firstGroup?_cons (c : Char) (cs : List Char) (more : List (List Char)) :
    firstGroup? (some ((c :: cs) :: more)) = some (String.ofList (c :: cs)) := by
  simp [firstGroup?, Option.filter]

theorem groups?_panicPattern (cs : List Char) :
    panicPattern.groups? cs = (panicReason? cs).map fun reason => [reason] := by
  rw [panicPattern, groups?_toStop, panicReason?_eq, Option.map_bind, Option.map_bind]
  congr 1
  funext rest
  rw [Function.comp_apply, Function.comp_apply, Option.map_map]
  rfl

theorem groups?_resourcePattern (cs : List Char) :
    resourcePattern.groups? cs = (resourceReason? cs).map fun reason => [reason] := by
  rw [resourcePattern, groups?_toEnd, resourceReason?, Option.map_map]
  rfl

/-- **The searches find what the patterns match.** -/
theorem reason?_eq_matchedReason? (raw : String) : reason? raw = matchedReason? raw := by
  have hor : (panicPattern.groups? raw.toList <|> resourcePattern.groups? raw.toList) =
      (panicReason? raw.toList <|> resourceReason? raw.toList).map fun reason => [reason] := by
    rw [groups?_panicPattern, groups?_resourcePattern]
    cases panicReason? raw.toList <;> rfl
  rw [matchedReason?, hor, reason?]
  cases (panicReason? raw.toList <|> resourceReason? raw.toList) with
  | none => rfl
  | some reason =>
    cases reason with
    | nil => rfl
    | cons c cs => exact (firstGroup?_cons c cs []).symm

/-! ## Searches -/

/-- No place stands behind the first beginning of a panic, if there is one. -/
def Placeless (cs : List Char) : Prop :=
  ∀ before after, FirstAt panicOpening before after cs → '@' ∉ after

/-- What a search for the beginnings comes to. -/
inductive Found (cs : List Char) : List Char → Prop
  /-- Behind the first beginning of a panic: all up to the next `@`. -/
  | panic {before reason after : List Char} :
      FirstAt panicOpening before (reason ++ '@' :: after) cs → '@' ∉ reason → Found cs reason
  /-- Else behind the first beginning of a resource error: all up to the next bracket, -/
  | closed {before reason after : List Char} : Placeless cs →
      FirstAt resourceOpening before (reason ++ ')' :: after) cs → ')' ∉ reason → Found cs reason
  /-- or to the end of the text. -/
  | unclosed {before reason : List Char} : Placeless cs →
      FirstAt resourceOpening before reason cs → ')' ∉ reason → Found cs reason
  /-- Nothing, where neither begins. -/
  | nothing : Placeless cs → ¬resourceOpening <:+: cs → Found cs []

theorem placeless_iff {cs : List Char} : Placeless cs ↔ panicReason? cs = none := by
  constructor
  · intro hplaceless
    refine Option.eq_none_iff_forall_ne_some.2 fun reason hsome => ?_
    obtain ⟨before, after, hfirst, -⟩ := panicReason?_eq_some_iff.1 hsome
    exact hplaceless _ _ hfirst (by simp)
  · intro hnone before after hfirst
    exact panicReason?_eq_none_iff.1 hnone before after hfirst.eq

/-- The reason of a resource error ends in front of a bracket, or with the text. -/
theorem resourceReason?_eq_some_iff_ends {cs reason : List Char} :
    resourceReason? cs = some reason ↔ ')' ∉ reason ∧ ∃ before,
      FirstAt resourceOpening before reason cs ∨
        ∃ after, FirstAt resourceOpening before (reason ++ ')' :: after) cs := by
  rw [resourceReason?_eq_some_iff]
  constructor
  · rintro ⟨before, rest, hfirst, hreason⟩
    obtain ⟨hfree, rfl | ⟨after, rfl⟩⟩ := takeWhile_ne_eq_iff.1 hreason.symm
    · exact ⟨hfree, before, Or.inl hfirst⟩
    · exact ⟨hfree, before, Or.inr ⟨after, hfirst⟩⟩
  · rintro ⟨hfree, before, hfirst | ⟨after, hfirst⟩⟩
    · exact ⟨before, _, hfirst, (takeWhile_ne_eq_iff.2 ⟨hfree, Or.inl rfl⟩).symm⟩
    · exact ⟨before, _, hfirst, (takeWhile_ne_eq_iff.2 ⟨hfree, Or.inr ⟨after, rfl⟩⟩).symm⟩

/-- **A search comes to one thing**, and that is what the reason is read off. -/
theorem found_iff {cs found : List Char} :
    Found cs found ↔ found = (panicReason? cs <|> resourceReason? cs).getD [] := by
  constructor
  · intro hfound
    cases hfound with
    | panic hfirst hfree =>
      rw [panicReason?_eq_some_iff.2 ⟨_, _, hfirst, hfree⟩]
      rfl
    | closed hplaceless hfirst hfree =>
      rw [placeless_iff.1 hplaceless,
        resourceReason?_eq_some_iff_ends.2 ⟨hfree, _, Or.inr ⟨_, hfirst⟩⟩]
      rfl
    | unclosed hplaceless hfirst hfree =>
      rw [placeless_iff.1 hplaceless,
        resourceReason?_eq_some_iff_ends.2 ⟨hfree, _, Or.inl hfirst⟩]
      rfl
    | nothing hplaceless hnone =>
      rw [placeless_iff.1 hplaceless, resourceReason?_eq_none_iff.2 hnone]
      rfl
  · rintro rfl
    cases hpanic : panicReason? cs with
    | some reason =>
      obtain ⟨before, after, hfirst, hfree⟩ := panicReason?_eq_some_iff.1 hpanic
      exact .panic hfirst hfree
    | none =>
      have hplaceless := placeless_iff.2 hpanic
      cases hresource : resourceReason? cs with
      | none => exact .nothing hplaceless (resourceReason?_eq_none_iff.1 hresource)
      | some reason =>
        obtain ⟨hfree, before, hfirst | ⟨after, hfirst⟩⟩ :=
          resourceReason?_eq_some_iff_ends.1 hresource
        · exact .unclosed hplaceless hfirst hfree
        · exact .closed hplaceless hfirst hfree

/-- The reason is what is found, unless that is nothing. -/
theorem reason?_of_found {raw : String} {found : List Char} (h : Found raw.toList found) :
    reason? raw = if found = [] then none else some (String.ofList found) := by
  rw [found_iff.1 h, reason?]
  cases (panicReason? raw.toList <|> resourceReason? raw.toList) with
  | none => rfl
  | some reason => cases reason <;> rfl

/-! ## Other characters -/

/-- A replacement of characters without marks by others without. -/
def KeepsMarks (f : Char → Char) : Prop :=
  ∀ c, f c ≠ c → c ∉ marks ∧ f c ∉ marks

theorem KeepsMarks.spares {f : Char → Char} (h : KeepsMarks f) {p : Pattern}
    (hp : ∀ piece ∈ p, piece.mark ∈ marks) : Spares f p := by
  intro piece hpiece c
  by_cases hc : f c = c
  · rw [hc]
  · obtain ⟨hbefore, hafter⟩ := h c hc
    exact iff_of_false (fun he => hafter (he ▸ hp piece hpiece))
      fun he => hbefore (he ▸ hp piece hpiece)

theorem firstGroup?_map (f : Char → Char) (groups : Option (List (List Char))) :
    firstGroup? (groups.map (List.map (List.map f))) = (firstGroup? groups).map (String.map f) := by
  match groups with
  | none | some [] => rfl
  | some ([] :: more) => rfl
  | some ((c :: cs) :: more) =>
    have hheld : String.ofList ((c :: cs).map f) = (String.ofList (c :: cs)).map f := by
      rw [← String.toList_inj, String.toList_map, String.toList_ofList, String.toList_ofList]
    calc firstGroup? (some ((f c :: cs.map f) :: more.map (List.map f)))
        = some (String.ofList (f c :: cs.map f)) := firstGroup?_cons _ _ _
      _ = some ((String.ofList (c :: cs)).map f) := congrArg some hheld
      _ = (firstGroup? (some ((c :: cs) :: more))).map (String.map f) := by
        rw [firstGroup?_cons, Option.map_some]

theorem matchedReason?_map {f : Char → Char} (h : KeepsMarks f) (raw : String) :
    matchedReason? (raw.map f) = (matchedReason? raw).map (String.map f) := by
  have hpanic : Spares f panicPattern := h.spares fun piece hpiece =>
    List.mem_map_of_mem (List.mem_append_left _ hpiece)
  have hresource : Spares f resourcePattern := h.spares fun piece hpiece =>
    List.mem_map_of_mem (List.mem_append_right _ hpiece)
  rw [matchedReason?, matchedReason?, String.toList_map, groups?_map hpanic,
    groups?_map hresource, ← firstGroup?_map]
  cases panicPattern.groups? raw.toList <;> rfl

/-! ## First occurrences -/

/-- **A reason stands at the first occurrence of its beginning.** The patterns match what a search
    finds there: behind a panic up to the next `@`, or else behind a resource error up to the next
    bracket or the end, and an empty reason is none. Characters that the patterns do not mention,
    line breaks among them, may be replaced by others of that sort. -/
theorem reason_at_first_occurrence :
    (∀ raw, reason? raw = matchedReason? raw) ∧
    (∀ raw : String, ∃! found, Found raw.toList found) ∧
    (∀ (raw : String) (found : List Char), Found raw.toList found →
      reason? raw = if found = [] then none else some (String.ofList found)) ∧
    ('\n' ∉ marks ∧ '\r' ∉ marks) ∧
    ∀ f, KeepsMarks f → ∀ raw : String, reason? (raw.map f) = (reason? raw).map (String.map f) := by
  refine ⟨reason?_eq_matchedReason?, fun raw => ?_, fun raw found hfound => reason?_of_found hfound,
    by decide, fun f hf raw => ?_⟩
  · exact ⟨_, found_iff.2 rfl, fun found hfound => found_iff.1 hfound⟩
  · rw [reason?_eq_matchedReason?, reason?_eq_matchedReason?, matchedReason?_map hf]

/-- Also where a panic begins within the reason of another one, with a line break between them, and
    where the reason of a panic is empty and a resource error follows. -/
theorem reason_at_first_occurrence_broken_line :
    let raw := "PanicMessage(\"no\nPanicMessage(\"funds@a.rs:1\")@b.rs:2"
    let unbroken := fun c => if c = '\n' then ' ' else c
    Found raw.toList "no\nPanicMessage(\"funds".toList ∧
      reason? raw = some "no\nPanicMessage(\"funds" ∧ KeepsMarks unbroken ∧
      reason? (raw.map unbroken) = some "no PanicMessage(\"funds" ∧
      Found "PanicMessage(\"@a.rs:1 ResourceError(funds)".toList [] ∧
      reason? "PanicMessage(\"@a.rs:1 ResourceError(funds)" = none := by
  intro raw unbroken
  obtain ⟨-, -, hfound, -, hmap⟩ := reason_at_first_occurrence
  have hnested : Found raw.toList "no\nPanicMessage(\"funds".toList := found_iff.2 (by decide)
  have hempty : Found "PanicMessage(\"@a.rs:1 ResourceError(funds)".toList [] :=
    found_iff.2 (by decide)
  have hraw : reason? raw = some "no\nPanicMessage(\"funds" := by
    rw [hfound raw _ hnested]
    rfl
  have hkeeps : KeepsMarks unbroken := by
    intro c hc
    obtain rfl : c = '\n' := by
      by_contra hne
      exact hc (if_neg hne)
    decide
  refine ⟨hnested, hraw, hkeeps, ?_, hempty, hfound _ _ hempty⟩
  rw [hmap unbroken hkeeps raw, hraw, Option.map_some, Option.some.injEq, ← String.toList_inj,
    String.toList_map]
  decide

end LedgerClient.Wallet
