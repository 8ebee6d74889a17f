/-
  Carrying out commands.

  * `Invocation.carryOut` finds the configuration and carries the command out;
  * a `Printout` is what a command prints, and the `Complaint` with which it
    ends where it did not do what it was asked for.
-/
import LedgerClient.Command
import LedgerClient.Config
import LedgerClient.Flow
import LedgerClient.Operation.Reader
import LedgerClient.Site

namespace LedgerClient

open Text

/-! ## Printouts -/

/-- Why a command did not do what it was asked for. -/
inductive Complaint where
  | fault (fault : Fault)
  | blankAccount
  /-- The configuration names no relay to the wallet. -/
  | noRelay
  | unsuccessful (operation : String)
deriving DecidableEq, Repr

namespace Complaint

/-- The text of a complaint. -/
def message : Complaint → String
  | fault f => f.message
  | blankAccount => "account address must not be empty"
  | noRelay => "wallet.relay_url is not configured"
  | unsuccessful operation => operation ++ " did not succeed"

end Complaint

/-- What a command prints. -/
structure Printout where
  lines : List String
  complaint : Option Complaint
deriving DecidableEq

namespace Printout

/-- A command that did what it was asked for. -/
def of (lines : List String) : Printout :=
  ⟨lines, none⟩

/-- All that is printed. -/
def text (p : Printout) : String :=
  String.join (p.lines.map fun line => line ++ "\n")

/-- The printout of a command that may end without one. -/
def ofExcept : Except Complaint Printout → Printout
  | .ok p => p
  | .error complaint => ⟨[], some complaint⟩

end Printout

/-! ## Commands -/

/-- A command being carried out. -/
abbrev Execution (α : Type) := ExceptT Complaint (Job Desk Errand Errand.Answer) α

namespace Command

/-- Ends the command at a fault. -/
def orFault {α : Type} (result : Except Fault α) : Execution α :=
  .mk (pure (result.mapError .fault))

/-- Does a job at a site; the command ends at its fault. -/
def doAt {α : Type} (site : Site) (job : Attempt α) : Execution α := do
  orFault (← ExceptT.lift (site.legwork job.run))

/-- The account of a text. -/
def accountOf (text : String) : Execution AccountRef :=
  match AccountRef.ofText? text with
  | some account => pure account
  | none => throw .blankAccount

/-- The site of the gateway alone. -/
def gatewayOnly (config : Config) : Site :=
  .make config.network.gatewayUrl "" .nowhere

/-- The site of the gateway, the wallet and the account file. -/
def fullSite (config : Config) (relayUrl : String) : Site :=
  .make config.network.gatewayUrl relayUrl (config.accountStorePath.elim .nowhere .inFile)

/-- What an account holds, a resource a line. -/
def balanceLines (b : Balances) : List String :=
  (b.fungibles.map fun f => f.resource ++ " " ++ f.amount.text) ++
    b.nonFungibles.map fun n => n.resource ++ " " ++ numeral n.count ++ " NFT(s)"

/-- The status of a transaction, and the error if there is one. -/
def statusLines (s : TransactionStatus) : List String :=
  (s.status ++ " (" ++ (ReceiptStatus.ofGateway s.status).name ++ ")") :: s.errorMessage.toList

/-- What is told about a run. -/
def reportLines (r : Report) : List String :=
  r.presented.notice.text ::
    match r.outcome with
    | .ok receipt => ["intent hash: " ++ receipt.intentHash]
    | .error _ => []

/-- The flow of the command line. -/
def flow (config : Config) (message : Option String) : Flow :=
  ⟨config.addresses, config.submission, message, .balances, config.accountStorePath.isSome⟩

/-- Takes an operation all the way, as the account kept in the file or the one
    that the wallet reports. -/
def submitOperation (config : Config) (op : Operation) (message : Option String) :
    Execution Printout := do
  let some relayUrl := config.relayUrl | throw .noRelay
  let site := fullSite config relayUrl
  let f := flow config message
  let _ ← doAt site (Connection.restore f.stored)
  let report ← doAt site (f.run op)
  pure
    { lines := reportLines report
      complaint := if report.isSuccess then none else some (.unsuccessful report.operation) }

/-- Carries a command out. -/
def carryOut (config : Config) : Command → Execution Printout
  | manifest account operation args => do
    let account ← accountOf account
    let op ← orFault (Operation.parse operation args)
    let m ← orFault (op.build account config.addresses)
    pure (.of [Manifest.render m])
  | operations => pure (.of (Operation.usage.map fun (name, usage) => name ++ " " ++ usage))
  | balances account => do
    let account ← accountOf account
    let b ← doAt (gatewayOnly config) (Ledger.balances account)
    pure (.of (balanceLines b))
  | status intentHash => do
    let s ← doAt (gatewayOnly config) (Ask.status intentHash)
    pure (.of (statusLines s))
  | submit operation args message => do
    let op ← orFault (Operation.parse operation args)
    submitOperation config op message
  | validateAddress address kind => do
    orFault (Address.validate address kind config.network.suffix)
    pure (.of [address ++ " is a valid " ++ kind.name ++ " address on " ++ config.network.name])

end Command

/-! ## Invocations -/

namespace Invocation

/-- What is printed about the version of the program. -/
def version : String := "dapp-cli 0.1.0\n"

/-- Reads a configuration file. -/
def configIn (path : String) : Except Fault (Option String) → Except Fault Config
  | .ok content => Config.load path content
  | .error fault => .error (.config (.quoted ("cannot read " ++ path ++ ": " ++ fault.message)))

/-- The configuration of an invocation: a file or the settings of a public
    network, with the environment applied. -/
def configuration (i : Invocation) (env : Config.Environment) : Legwork (Except Fault Config) := do
  let config ← match i.configPath with
    | some path => do pure (configIn path (← Errand.run (.readFile path)))
    | none => pure (Config.forNetwork i.network)
  pure (config.map fun c => c.withEnvironment env)

/-- Finds the configuration and carries the command out. -/
def carryOut (i : Invocation) (env : Config.Environment) : Legwork Printout := do
  let execution : Execution Printout := do
    let config ← Command.orFault (← ExceptT.lift (i.configuration env))
    i.command.carryOut config
  pure (Printout.ofExcept (← execution.run))

end Invocation

end LedgerClient
