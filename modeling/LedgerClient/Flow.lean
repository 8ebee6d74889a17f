/-
  Flows: an operation from the user's request to the notice about its outcome,
  one run at a time.

  * `Flow` holds the settings, `Flow.prepare` makes the audited manifest of an
    operation in the name of the connected account;
  * `Flow.run` takes an operation all the way. While a run is under way every
    other one is refused; a run that was not refused ends with a `Report`,
    whatever its outcome.
-/
import LedgerClient.Connection
import LedgerClient.Ledger
import LedgerClient.Operation.Template
import LedgerClient.Presentation
import LedgerClient.Transaction

namespace LedgerClient

/-- What is read again after a success. -/
inductive Refresher where
  /-- the balances of the account that acted -/
  | balances
  /-- whatever the outside shows of the ledger -/
  | outside
deriving DecidableEq, Repr

/-- The settings of a flow. -/
structure Flow where
  addresses : AddressBook
  submission : Submission
  /-- The message that goes with every transaction. -/
  message : Option String
  refresher : Refresher
  /-- Whether there is a store for the connected account. -/
  stored : Bool

/-- What became of a run. -/
structure Report where
  operation : String
  outcome : Outcome
  presented : Presented

/-- Whether a run ended with a successful transaction. -/
def Report.isSuccess (r : Report) : Bool :=
  Outcome.isSuccess r.outcome

namespace Flow

/-- The connected account, and the manifest of an operation in its name. -/
def prepare (f : Flow) (op : Operation) : Attempt (AccountRef × Manifest) := do
  let account ← Connection.resolve f.stored
  let manifest ← op.build account f.addresses
  Work.modify (Desk.record Metrics.manifestBuilt)
  pure (account, manifest)

/-- Reads the balances of the account that acted, if one did. -/
def refreshBalances : Option AccountRef → Attempt Unit
  | some account => do
    let balances ← Ledger.balances account
    Work.modify (Desk.setBalances balances)
  | none => pure ()

/-- The refresh after a success. -/
def refresh (f : Flow) (account : Option AccountRef) : Attempt Unit :=
  match f.refresher with
  | .balances => refreshBalances account
  | .outside => Ask.refresh

/-- Prepares and submits an operation: the account that acted and the outcome. -/
def perform (f : Flow) (op : Operation) : Work (Option AccountRef × Outcome) := do
  match ← (f.prepare op).run with
  | .ok (account, manifest) =>
    let outcome ← Transaction.submit f.submission f.message manifest
    pure (some account, outcome)
  | .error fault => pure (none, .error fault)

/-- A run that was not refused. -/
def runAccepted (f : Flow) (op : Operation) : Work Report := do
  Presentation.begin
  let (account, outcome) ← f.perform op
  let presented ←
    Presentation.present f.submission.refreshDelayMs outcome (some (f.refresh account))
  Work.modify (Desk.setBusy false)
  pure ⟨op.name, outcome, presented⟩

/-- Runs an operation, unless another run is under way. -/
def run (f : Flow) (op : Operation) : Attempt Report := do
  let before ← Work.exchange (Desk.setBusy true)
  if before.busy then
    throw .submissionInFlight
  else
    f.runAccepted op

end Flow

end LedgerClient
