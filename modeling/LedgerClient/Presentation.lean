/-
  Presentation: telling the user about the outcome of a submission.

  * `Presentation.begin` shows that a submission is under way,
    `Presentation.present` gives the notice about its outcome and, after a
    success, has the ledger read again.
-/
import LedgerClient.Question

namespace LedgerClient

/-- What was presented. -/
structure Presented where
  notice : Notice
  /-- The phase that was shown before the flow was idle again. -/
  phase : Phase
  /-- Whether the ledger was read again. -/
  refreshed : Bool

namespace Presentation

/-- Shows that a submission is under way. -/
def begin : Work Unit :=
  Work.modify (Desk.setPhase .submitting)

/-- The phase that goes with a notice. -/
def phaseOf (notice : Notice) : Phase :=
  match notice.level with
  | .success => .succeeded
  | .failure => .failed

/-- Whether reading the ledger again went well, after the delay. -/
def refreshAfter (delayMs : Nat) (refresh : Attempt Unit) : Work Bool := do
  Ask.wait delayMs
  match ← refresh.run with
  | .ok () => pure true
  | .error _ => pure false

/-- Gives the notice about an outcome. After a success the ledger is read again,
    once, if there is a way to; whether that works changes nothing else. -/
def present (delayMs : Nat) (outcome : Outcome) (refresh : Option (Attempt Unit)) :
    Work Presented := do
  let notice := Notice.ofOutcome outcome
  let phase := phaseOf notice
  Work.modify (Desk.setPhase phase)
  Work.modify (Desk.notify notice)
  let refreshed ← match refresh, phase with
    | some refresh, .succeeded => refreshAfter delayMs refresh
    | _, _ => pure false
  Work.modify (Desk.setPhase .idle)
  pure ⟨notice, phase, refreshed⟩

end Presentation

end LedgerClient
