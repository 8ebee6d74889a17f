/-
  Transactions: handing a manifest to the wallet and waiting for the verdict.

  * `Transaction.awaitReceipt` asks for the status of a transaction until there
    is a verdict or the attempts are used up, and makes the receipt;
  * `Transaction.submit` hands a manifest to the wallet and awaits its receipt.
    A fault means that there is no answer; a transaction that the ledger did
    not accept has a receipt.
-/
import LedgerClient.Config
import LedgerClient.Manifest.Instruction
import LedgerClient.Question
import LedgerClient.Receipt.Details

namespace LedgerClient.Transaction

/-! ## Verdicts -/

/-- The answer to the last poll: the verdict and the error beside it. -/
structure Polled where
  status : ReceiptStatus
  errorMessage : Option String

/-- What an answer of the gateway says. -/
def Polled.ofAnswer (answer : TransactionStatus) : Polled :=
  ⟨.ofGateway answer.status, answer.errorMessage⟩

/-- Asks for the status, and again after an interval as long as there is no
    verdict, at most `more` times. -/
def poll (intervalMs : Nat) (intentHash : String) : Nat → Attempt Polled
  | 0 => do
    pure (.ofAnswer (← Ask.status intentHash))
  | more + 1 => do
    let polled := Polled.ofAnswer (← Ask.status intentHash)
    if polled.status.isFinal then
      pure polled
    else
      Ask.wait intervalMs
      poll intervalMs intentHash more

/-! ## Receipts -/

/-- The receipt with an error message, unless it has one already. -/
def withError (r : Receipt) (error : Option String) : Receipt :=
  { r with errorMessage := r.errorMessage <|> error }

/-- The receipt for the last answer, with the details where they could be had. -/
def receiptOf (intentHash : String) (polled : Polled) (details : Except Fault CommittedDetails) :
    Receipt :=
  match details with
  | .ok details => withError (.ofDetails intentHash polled.status details) polled.errorMessage
  | .error _ => withError (.bare intentHash polled.status) polled.errorMessage

/-- Whether a transaction with this verdict has been committed. -/
def isCommitted : ReceiptStatus → Bool
  | .success | .failure => true
  | _ => false

/-- Waits for the verdict on a transaction. The details of a committed one are
    asked for once, and a fault in getting them is forgiven. -/
def awaitReceipt (s : Submission) (intentHash : String) : Attempt Receipt := do
  let polled ← poll s.pollIntervalMs intentHash (s.pollAttempts - 1)
  if isCommitted polled.status then
    let details ← ExceptT.lift (Ask.details intentHash).run
    pure (receiptOf intentHash polled details)
  else
    pure (withError (.bare intentHash polled.status) polled.errorMessage)

/-! ## Submission -/

/-- The request for a manifest. -/
def requestFor (message : Option String) (manifest : Manifest) : TransactionRequest :=
  ⟨Manifest.render manifest, TransactionRequest.currentVersion, message⟩

/-- Hands a manifest to the wallet and awaits the receipt; both ends of it are
    recorded in the metrics. -/
def submit (s : Submission) (message : Option String) (manifest : Manifest) :
    Work Outcome := do
  let start ← Ask.now
  Work.modify (Desk.record Metrics.submission)
  let outcome ← (do awaitReceipt s (← Ask.sign (requestFor message manifest)) : Attempt Receipt).run
  let stop ← Ask.now
  Work.modify <| Desk.record fun m =>
    m.outcome (Outcome.isSuccess outcome) (Metrics.secondsBetween start stop)
  pure outcome

end LedgerClient.Transaction
