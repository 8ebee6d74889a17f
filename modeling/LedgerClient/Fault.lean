/-
  Faults: everything that can go wrong between a user's request and the
  ledger's answer.

  * `Fault` has one constructor per cause; `Fault.kind` is the name of the
    cause, `Fault.message` the full text, and `Fault.userMessage` the text shown
    to the person in front of the screen;
  * a `Wording` is worded here, or quoted from outside (the operating system,
    a transport, the reader of a document), in which case only the cause is
    fixed and not the words;
  * `Fault.retryable` holds for the outages that may pass by themselves;
  * `Fault.crash` is no answer but the lack of one. `Fault.retoldAs` is how a
    handler puts a fault in its own words, which a crash never reaches.
-/

namespace LedgerClient

/-- A piece of explanation: our own words, or words quoted from outside. -/
inductive Wording where
  | own (text : String)
  | quoted (text : String)
deriving DecidableEq, Repr

/-- A text by itself is our own. -/
instance : Coe String Wording :=
  ⟨.own⟩

/-- The words themselves. -/
def Wording.text : Wording → String
  | own text | quoted text => text

/-- Whether the words are quoted from outside. -/
def Wording.isQuoted : Wording → Bool
  | own _ => false
  | quoted _ => true

/-- What can go wrong. -/
inductive Fault where
  /-- The wallet does not answer. -/
  | walletUnavailable (why : Wording)
  /-- The wallet offers no account. -/
  | notConnected
  /-- The user declined the transaction. -/
  | userRejected
  /-- The gateway does not answer, or answers with an error. -/
  | networkFailure (why : Wording)
  /-- The ledger refused the transaction. -/
  | ledgerRejection (reason : String)
  /-- An answer does not have the expected shape at `field`. -/
  | schemaMismatch (field expected : String) (found : Wording)
  | invalidAmount (text : String)
  | invalidAddress (text : String)
  | unknownOperation (name : String)
  | invalidManifest (reason : String)
  /-- A manifest would leave something behind. -/
  | strandedResource (what : String)
  /-- A transaction of the same flow is under way. -/
  | submissionInFlight
  | config (why : Wording)
  | io (why : Wording)
  | serialization (why : Wording)
  /-- The program stops in the middle. Whatever follows in a run that meets this stands for
  nothing. -/
  | crash (why : Wording)
deriving DecidableEq, Repr

namespace Fault

/-- The name of a cause. -/
def kind : Fault → String
  | walletUnavailable _ => "WalletUnavailable"
  | notConnected => "NotConnected"
  | userRejected => "UserRejected"
  | networkFailure _ => "NetworkFailure"
  | ledgerRejection _ => "LedgerRejection"
  | schemaMismatch _ _ _ => "SchemaMismatch"
  | invalidAmount _ => "InvalidAmount"
  | invalidAddress _ => "InvalidAddress"
  | unknownOperation _ => "UnknownOperation"
  | invalidManifest _ => "InvalidManifest"
  | strandedResource _ => "StrandedResource"
  | submissionInFlight => "SubmissionInFlight"
  | config _ => "Config"
  | io _ => "Io"
  | serialization _ => "Serialization"
  | crash _ => "Panic"

/-- The full text of a fault. -/
def message : Fault → String
  | walletUnavailable why => "Wallet unavailable: " ++ why.text
  | notConnected => "No account connected"
  | userRejected => "Transaction rejected by user"
  | networkFailure why => "Network failure: " ++ why.text
  | ledgerRejection reason => "Ledger rejected transaction: " ++ reason
  | schemaMismatch field expected found =>
    "Schema mismatch at '" ++ field ++ "': expected " ++ expected ++ ", found " ++ found.text
  | invalidAmount text => "Invalid amount: " ++ text
  | invalidAddress text => "Invalid address: " ++ text
  | unknownOperation name => "Unknown operation: " ++ name
  | invalidManifest reason => "Invalid manifest: " ++ reason
  | strandedResource what => "Stranded resource: " ++ what
  | submissionInFlight => "A transaction is already being submitted"
  | config why => "Configuration error: " ++ why.text
  | io why => "IO error: " ++ why.text
  | serialization why => "Serialization error: " ++ why.text
  | crash why => why.text

/-- The text for the user: advice where there is any, else the full text. -/
def userMessage : Fault → String
  | walletUnavailable _ => "Wallet not available. Is it installed and running?"
  | notConnected => "Please connect an account first."
  | userRejected => "Transaction was rejected in the wallet."
  | networkFailure _ => "Something went wrong, please try again."
  | ledgerRejection reason => reason
  | invalidAmount text => "'" ++ text ++ "' is not a valid amount."
  | fault => fault.message

/-- Whether trying again may help. -/
def retryable : Fault → Bool
  | networkFailure _ | walletUnavailable _ => true
  | _ => false

/-- The explanation of the faults that may quote words from outside. -/
def wording? : Fault → Option Wording
  | walletUnavailable why | networkFailure why | schemaMismatch _ _ why | config why | io why
  | serialization why | crash why => some why
  | _ => none

/-- What a handler tells in place of a fault. A crash comes to no handler. -/
def retoldAs (told : Fault) : Fault → Fault
  | crash why => crash why
  | _ => told

end Fault

end LedgerClient
