/-
  Notices: what the user is told after a submission.

  * `Outcome` is a receipt, or the fault that left the submission without one;
  * `Notice.ofOutcome` is the notice about an outcome, `Notice.text` its text.
-/
import LedgerClient.Fault
import LedgerClient.Receipt
import LedgerClient.Wallet.Refusal

namespace LedgerClient

open Text

/-- What a submission came to. -/
abbrev Outcome := Except Fault Receipt

/-- Whether a submission ended with a successful transaction. -/
def Outcome.isSuccess : Outcome → Bool
  | .ok receipt => receipt.status.isSuccess
  | .error _ => false

/-- Whether a notice is good news. -/
inductive NoticeLevel where
  | success
  | failure
deriving DecidableEq, Repr

namespace NoticeLevel

def name : NoticeLevel → String
  | success => "Success"
  | failure => "Failure"

def title : NoticeLevel → String
  | success => "Transaction succeeded"
  | failure => "Transaction failed"

end NoticeLevel

/-- A message to the user. -/
structure Notice where
  level : NoticeLevel
  message : String
deriving DecidableEq, Repr

namespace Notice

def title (n : Notice) : String :=
  n.level.title

/-- The whole text of a notice. -/
def text (n : Notice) : String :=
  n.title ++ ": " ++ n.message

/-- Writes a notice. -/
def toJson (n : Notice) : Json :=
  .obj
    [("level", .str n.level.name), ("title", .str n.title), ("message", .str n.message),
     ("text", .str n.text)]

/-- The message about a successful transaction: its events, one a line. -/
def successMessage (r : Receipt) : String :=
  if r.logs.isEmpty then "Transaction " ++ r.intentHash ++ " committed"
  else joinWith "\n" r.logs

/-- The message about any other transaction: the reason, else the events, else
    the verdict. -/
def failureMessage (r : Receipt) : String :=
  match r.errorMessage with
  | some raw => Wallet.reasonOrSelf raw
  | none =>
    if r.logs.isEmpty then "Transaction " ++ r.intentHash ++ " ended as " ++ r.status.name
    else joinWith "\n" r.logs

/-- The notice about an outcome. -/
def ofOutcome : Outcome → Notice
  | .ok receipt =>
    if receipt.status.isSuccess then ⟨.success, successMessage receipt⟩
    else ⟨.failure, failureMessage receipt⟩
  | .error fault => ⟨.failure, fault.userMessage⟩

end Notice

end LedgerClient
