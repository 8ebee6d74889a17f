/-
  Questions: all that the client asks of the outside.

  * `Question` lists them: questions to the wallet, to the gateway, to the
    store that keeps the connected account, and to the clock;
  * `Question.Answer` is the type of the answer to a question;
  * `Work` is a job on the desk with such questions, `Attempt` one that may end
    with a fault;
  * in the namespace `Work` are the changes of the desk, in the namespace `Ask`
    the single questions.
-/
import LedgerClient.Desk
import LedgerClient.Gateway.Answer
import LedgerClient.Gateway.Entity
import LedgerClient.Job
import LedgerClient.Wallet.Message

namespace LedgerClient

/-- A question to the outside. -/
inductive Question where
  -- to the wallet
  /-- the accounts it has shared -/
  | accounts
  /-- to review, sign and submit a transaction -/
  | sign (request : TransactionRequest)
  -- to the gateway
  | entities (addresses : List String)
  | component (address : String)
  | nonFungible (resource id : String)
  | status (intentHash : String)
  | details (intentHash : String)
  -- to the store of the connected account
  | load
  | save (account : AccountRef)
  | clear
  /-- to whoever shows the ledger: to read it again -/
  | refresh
  -- to the clock
  /-- to let a number of milliseconds pass -/
  | wait (ms : Nat)
  /-- the time in milliseconds -/
  | now

/-- The type of the answer to a question. -/
@[reducible] def Question.Answer : Question → Type
  | accounts => Except Fault (List WalletAccount)
  | sign _ => Except Fault String
  | entities _ => Except Fault (List Entity)
  | component _ => Except Fault ComponentDocument
  | nonFungible _ _ => Except Fault NonFungibleDocument
  | status _ => Except Fault TransactionStatus
  | details _ => Except Fault CommittedDetails
  | load => Except Fault (Option AccountRef)
  | save _ | clear | refresh => Except Fault Unit
  | wait _ => Unit
  | now => Nat

/-- A job on the desk. -/
abbrev Work (α : Type) := Job Desk Question Question.Answer α

/-- A job on the desk that may end with a fault. -/
abbrev Attempt (α : Type) := ExceptT Fault (Job Desk Question Question.Answer) α

namespace Work

/-- Changes the desk. -/
def modify (change : Desk → Desk) : Work Unit :=
  Job.modify change

/-- Changes the desk, and returns what it was before. -/
def exchange (change : Desk → Desk) : Work Desk :=
  Job.exchange change

end Work

namespace Ask

/-- The job of one question. -/
def one (q : Question) : Work q.Answer :=
  Job.request q

def accounts : Attempt (List WalletAccount) := .mk (one .accounts)

/-- Hands a transaction to the wallet; the answer is its intent hash. -/
def sign (request : TransactionRequest) : Attempt String := .mk (one (.sign request))

def entities (addresses : List String) : Attempt (List Entity) := .mk (one (.entities addresses))

def component (address : String) : Attempt ComponentDocument := .mk (one (.component address))

def nonFungible (resource id : String) : Attempt NonFungibleDocument :=
  .mk (one (.nonFungible resource id))

def status (intentHash : String) : Attempt TransactionStatus := .mk (one (.status intentHash))

def details (intentHash : String) : Attempt CommittedDetails := .mk (one (.details intentHash))

def load : Attempt (Option AccountRef) := .mk (one .load)

def save (account : AccountRef) : Attempt Unit := .mk (one (.save account))

def clear : Attempt Unit := .mk (one .clear)

def refresh : Attempt Unit := .mk (one .refresh)

def wait (ms : Nat) : Work Unit := one (.wait ms)

def now : Work Nat := one .now

end Ask

end LedgerClient
