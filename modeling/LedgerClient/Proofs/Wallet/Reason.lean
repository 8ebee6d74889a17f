/-
  Reasons within reasons.

  * `panicReason?_eq_some_iff` and `resourceReason?_eq_some_iff` say where in a text the reason
    of a panic and that of a resource error stand;
  * `panicReason?_reason`: no reason holds a panic with its place, so that only a resource error
    can be found in one (`reason?_reason_eq_none_iff`);
  * `reduced_again_iff`: so an error text that was reduced to its reason stays as it is just
    where that reason tells no resource error, and only there the notice about a receipt says
    what the receipt says.
-/
import LedgerClient.Notice
import LedgerClient.Proofs.Text.Search
import LedgerClient.Receipt.Details

namespace LedgerClient.Wallet

open Text

/-! ## Where the reasons stand -/

/-- How a panic begins. -/
def panicOpening : List Char :=
  "PanicMessage(\"".toList

/-- How a resource error begins. -/
def resourceOpening : List Char :=
  "ResourceError(".toList

section Parts

variable {cs reason : List Char}

theorem panicReason?_eq (cs : List Char) :
    panicReason? cs =
      (after? panicOpening cs).bind fun rest => (cutAt? '@' rest).map Prod.fst := by
  rw [panicReason?]
  congr 1
  funext rest
  cases cutAt? '@' rest <;> rfl

/-- The reason of a panic stands between its first beginning and the next `@`. -/
theorem panicReason?_eq_some_iff :
    panicReason? cs = some reason ↔
      ∃ before after, FirstAt panicOpening before (reason ++ '@' :: after) cs ∧ '@' ∉ reason := by
  rw [panicReason?_eq, Option.bind_eq_some_iff]
  constructor
  · rintro ⟨rest, hafter, hcut⟩
    obtain ⟨before, hfirst⟩ := after?_eq_some_iff.1 hafter
    obtain ⟨⟨_, after⟩, hpair, rfl⟩ := Option.map_eq_some_iff.1 hcut
    obtain ⟨rfl, hfree⟩ := cutAt?_eq_some_iff.1 hpair
    exact ⟨before, after, hfirst, hfree⟩
  · rintro ⟨before, after, hfirst, hfree⟩
    refine ⟨_, after?_eq_some_iff.2 ⟨before, hfirst⟩, ?_⟩
    rw [cutAt?_eq_some_iff.2 ⟨rfl, hfree⟩]
    rfl

/-- No panic is found just where none is followed by its place, be it the first one or not. -/
theorem panicReason?_eq_none_iff :
    panicReason? cs = none ↔ ∀ before after, cs = before ++ panicOpening ++ after → '@' ∉ after := by
  constructor
  · intro hnone before after he hmem
    obtain ⟨before', after', hfirst⟩ := exists_firstAt ⟨before, after, he.symm⟩
    obtain ⟨reason, rest, rfl, hfree⟩ := List.eq_append_cons_of_mem ((hfirst.suffix he).subset hmem)
    rw [panicReason?_eq_some_iff.2 ⟨before', rest, hfirst, hfree⟩] at hnone
    cases hnone
  · intro hno
    refine Option.eq_none_iff_forall_ne_some.2 fun reason hsome => ?_
    obtain ⟨before, after, hfirst, -⟩ := panicReason?_eq_some_iff.1 hsome
    exact hno _ _ hfirst.eq (by simp)

/-- The reason of a resource error stands between its first beginning and the next bracket. -/
theorem resourceReason?_eq_some_iff :
    resourceReason? cs = some reason ↔ ∃ before rest, FirstAt resourceOpening before rest cs ∧
      reason = rest.takeWhile (· != ')') := by
  rw [resourceReason?, Option.map_eq_some_iff]
  constructor
  · rintro ⟨rest, hafter, rfl⟩
    obtain ⟨before, hfirst⟩ := after?_eq_some_iff.1 hafter
    exact ⟨before, rest, hfirst, rfl⟩
  · rintro ⟨before, rest, hfirst, rfl⟩
    exact ⟨rest, after?_eq_some_iff.2 ⟨before, hfirst⟩, rfl⟩

theorem resourceReason?_eq_none_iff : resourceReason? cs = none ↔ ¬resourceOpening <:+: cs := by
  rw [resourceReason?, Option.map_eq_none_iff]
  exact after?_eq_none_iff

end Parts

section Whole

variable {raw reason : String}

theorem reason?_eq_some_iff :
    reason? raw = some reason ↔ reason ≠ "" ∧
      (panicReason? raw.toList <|> resourceReason? raw.toList) = some reason.toList := by
  rw [reason?]
  generalize (panicReason? raw.toList <|> resourceReason? raw.toList) = found
  match found with
  | none => simp
  | some [] => simp
  | some (c :: cs) =>
    rw [Option.some.injEq, Option.some.injEq, ← String.toList_inj, String.toList_ofList]
    refine ⟨fun h => ⟨?_, h⟩, And.right⟩
    rintro rfl
    cases h

/-- A reason is the one of a panic, or else that of a resource error. -/
theorem reason?_cases (h : reason? raw = some reason) :
    panicReason? raw.toList = some reason.toList ∨
      panicReason? raw.toList = none ∧ resourceReason? raw.toList = some reason.toList := by
  obtain ⟨-, hfound⟩ := reason?_eq_some_iff.1 h
  cases hpanic : panicReason? raw.toList with
  | some found => exact Or.inl (by simpa [hpanic] using hfound)
  | none => exact Or.inr ⟨rfl, by simpa [hpanic] using hfound⟩

/-- A reason is a part of the text, with something in front of it. -/
theorem exists_eq_of_reason? (h : reason? raw = some reason) :
    ∃ before after, before ≠ [] ∧ raw.toList = before ++ reason.toList ++ after := by
  obtain hpanic | ⟨-, hresource⟩ := reason?_cases h
  · obtain ⟨before, after, hfirst, -⟩ := panicReason?_eq_some_iff.1 hpanic
    have hne : before ++ panicOpening ≠ [] := List.append_ne_nil_of_right_ne_nil _ (by decide)
    exact ⟨_, '@' :: after, hne, by rw [hfirst.eq, List.append_assoc _ reason.toList]⟩
  · obtain ⟨before, rest, hfirst, hreason⟩ := resourceReason?_eq_some_iff.1 hresource
    have hne : before ++ resourceOpening ≠ [] := List.append_ne_nil_of_right_ne_nil _ (by decide)
    obtain ⟨after, hrest⟩ := rest.takeWhile_prefix (· != ')')
    refine ⟨_, after, hne, ?_⟩
    rw [hfirst.eq, hreason, List.append_assoc _ (rest.takeWhile _), hrest]

/-! ## Reasons within reasons -/

/-- **No reason holds a panic with its place.** -/
theorem panicReason?_reason (h : reason? raw = some reason) :
    panicReason? reason.toList = none := by
  refine panicReason?_eq_none_iff.2 fun before after he hmem => ?_
  obtain hpanic | ⟨hnone, -⟩ := reason?_cases h
  · obtain ⟨-, -, -, hfree⟩ := panicReason?_eq_some_iff.1 hpanic
    exact hfree (he ▸ List.mem_append_right _ hmem)
  · obtain ⟨front, back, -, hraw⟩ := exists_eq_of_reason? h
    refine panicReason?_eq_none_iff.1 hnone (front ++ before) (after ++ back) ?_
      (List.mem_append_left _ hmem)
    simp only [hraw, he, List.append_assoc]

/-- The first resource error in the text has something in its brackets. -/
def TellsResourceError (text : String) : Prop :=
  ∃ before c after, FirstAt resourceOpening before (c :: after) text.toList ∧ c ≠ ')'

/-- What is found in a reason is what a resource error in it tells. -/
theorem reason?_reason_eq_none_iff (h : reason? raw = some reason) :
    reason? reason = none ↔ ¬TellsResourceError reason := by
  have hinner : ∀ inner, reason? reason = some inner ↔
      inner ≠ "" ∧ resourceReason? reason.toList = some inner.toList := by
    intro inner
    rw [reason?_eq_some_iff, panicReason?_reason h]
    rfl
  rw [Option.eq_none_iff_forall_ne_some, ← not_exists, not_iff_not]
  constructor
  · rintro ⟨inner, hsome⟩
    obtain ⟨hne, hresource⟩ := (hinner inner).1 hsome
    obtain ⟨before, rest, hfirst, htake⟩ := resourceReason?_eq_some_iff.1 hresource
    cases rest with
    | nil => exact absurd (String.toList_eq_nil_iff.1 htake) hne
    | cons c after =>
      refine ⟨before, c, after, hfirst, ?_⟩
      rintro rfl
      exact hne (String.toList_eq_nil_iff.1 htake)
  · rintro ⟨before, c, after, hfirst, hc⟩
    refine ⟨String.ofList (c :: after.takeWhile (· != ')')), (hinner _).2 ⟨?_, ?_⟩⟩
    · simp
    · rw [resourceReason?_eq_some_iff]
      exact ⟨before, c :: after, hfirst, by simp [hc]⟩

theorem reasonOrSelf_of_some (h : reason? raw = some reason) : reasonOrSelf raw = reason := by
  rw [reasonOrSelf, h, Option.getD_some]

theorem reasonOrSelf_of_none (h : reason? raw = none) : reasonOrSelf raw = raw := by
  rw [reasonOrSelf, h, Option.getD_none]

/-- A text stays as it is just where it has no reason. -/
theorem reasonOrSelf_eq_self_iff : reasonOrSelf raw = raw ↔ reason? raw = none := by
  constructor
  · intro hself
    cases hreason : reason? raw with
    | none => rfl
    | some reason =>
      obtain ⟨before, after, hne, hraw⟩ := exists_eq_of_reason? hreason
      rw [← reasonOrSelf_of_some hreason, hself] at hraw
      have hlength := congrArg List.length hraw
      have hpos := List.length_pos_iff.2 hne
      simp only [List.length_append] at hlength
      omega
  · exact reasonOrSelf_of_none

/-- A text that was reduced stays as it is where its reason tells no resource error. -/
theorem reasonOrSelf_reasonOrSelf_iff :
    reasonOrSelf (reasonOrSelf raw) = reasonOrSelf raw ↔
      ∀ reason, reason? raw = some reason → ¬TellsResourceError reason := by
  rw [reasonOrSelf_eq_self_iff]
  cases hreason : reason? raw with
  | none => simp [reasonOrSelf_of_none hreason, hreason]
  | some reason =>
    rw [reasonOrSelf_of_some hreason, reason?_reason_eq_none_iff hreason]
    simp

end Whole

/-! ## Notices -/

/-- The notice about a transaction that did not succeed reduces the error of the receipt. -/
theorem ofOutcome_of_error {receipt : Receipt} {error : String} (hstatus : receipt.status ≠ .success)
    (herror : receipt.errorMessage = some error) :
    Notice.ofOutcome (.ok receipt) = ⟨.failure, reasonOrSelf error⟩ := by
  have hfailed : receipt.status.isSuccess = false := by
    cases h : receipt.status <;> simp_all [ReceiptStatus.isSuccess]
  simp [Notice.ofOutcome, hfailed, Notice.failureMessage, herror]

/-- **An error that was reduced stays as it is, unless its reason tells a resource error.** The
    error in the details of a transaction is reduced for the receipt and once more for the
    notice, which therefore says the same just where that is not so. -/
theorem reduced_again_iff :
    (∀ raw, reasonOrSelf (reasonOrSelf raw) = reasonOrSelf raw ↔
      ∀ reason, reason? raw = some reason → ¬TellsResourceError reason) ∧
    ∀ (intentHash : String) (polled : ReceiptStatus) (d : CommittedDetails) (raw : String),
      (d.errorMessage <|> d.report.bind (·.errorMessage)) = some raw →
      let receipt := Receipt.ofDetails intentHash polled d
      let notice := Notice.ofOutcome (.ok receipt)
      receipt.status ≠ .success → notice.level = .failure ∧
        (receipt.errorMessage = some notice.message ↔
          ∀ reason, reason? raw = some reason → ¬TellsResourceError reason) := by
  refine ⟨fun raw => reasonOrSelf_reasonOrSelf_iff, ?_⟩
  intro intentHash polled d raw hraw receipt notice hstatus
  have herror : receipt.errorMessage = some (reasonOrSelf raw) := by
    show (d.errorMessage <|> d.report.bind (·.errorMessage)).map reasonOrSelf = _
    rw [hraw, Option.map_some]
  have hnotice : notice = ⟨.failure, reasonOrSelf (reasonOrSelf raw)⟩ :=
    ofOutcome_of_error hstatus herror
  rw [hnotice, herror, Option.some.injEq]
  exact ⟨rfl, eq_comm.trans reasonOrSelf_reasonOrSelf_iff⟩

/-- Also where the reason of a panic holds the beginnings of a panic and of a resource error. -/
theorem reduced_again_iff_beginnings :
    let raw := "KernelError(PanicMessage(\"ResourceError() in PanicMessage(\"pool@lib.rs:1\"))"
    let reason := "ResourceError() in PanicMessage(\"pool"
    let d : CommittedDetails := ⟨"CommittedFailure", none, none, some raw, none⟩
    let receipt := Receipt.ofDetails "txid" .failure d
    reason? raw = some reason ∧ reasonOrSelf (reasonOrSelf raw) = reasonOrSelf raw ∧
      (d.errorMessage <|> d.report.bind (·.errorMessage)) = some raw ∧
      receipt.status ≠ .success ∧
      receipt.errorMessage = some (Notice.ofOutcome (.ok receipt)).message := by
  intro raw reason d receipt
  have hreason : reason? raw = some reason := by decide
  have htells : ¬TellsResourceError reason :=
    (reason?_reason_eq_none_iff hreason).1 (by decide)
  have hstable : ∀ found, reason? raw = some found → ¬TellsResourceError found := by
    intro found hfound
    rwa [← Option.some.inj (hreason.symm.trans hfound)]
  have hstatus : receipt.status ≠ .success := by decide
  exact ⟨hreason, (reduced_again_iff.1 raw).2 hstable, rfl, hstatus,
    (reduced_again_iff.2 "txid" .failure d raw rfl hstatus).2.2 hstable⟩

/-- So a resource error in the reason of a panic is told by the notice without its name, while
    the receipt has the reason of the panic. -/
theorem panic_over_resource_error_reduced_twice :
    let raw := "KernelError(PanicMessage(\"ResourceError(NoSuchVault)@lib.rs:1\"))"
    let d : CommittedDetails := ⟨"CommittedFailure", none, none, some raw, none⟩
    let receipt := Receipt.ofDetails "txid" .failure d
    reasonOrSelf raw = "ResourceError(NoSuchVault)" ∧
      reasonOrSelf (reasonOrSelf raw) ≠ reasonOrSelf raw ∧ receipt.status ≠ .success ∧
      receipt.errorMessage = some "ResourceError(NoSuchVault)" ∧
      Notice.ofOutcome (.ok receipt) = ⟨.failure, "NoSuchVault"⟩ := by
  decide

end LedgerClient.Wallet
