/-
  Commands: what can be asked for on the command line.

  * `Verb` names the commands, `Command` is a command with its arguments;
  * `Invocation` is a command with the configuration it is to use.
-/
import LedgerClient.Address

namespace LedgerClient

/-- The names of commands. -/
inductive Verb where
  | manifest
  | operations
  | balances
  | status
  | submit
  | validateAddress
deriving DecidableEq, Repr

namespace Verb

/-- All commands. -/
def all : List Verb :=
  [manifest, operations, balances, status, submit, validateAddress]

/-- The word for a command. -/
def word : Verb → String
  | manifest => "manifest"
  | operations => "operations"
  | balances => "balances"
  | status => "status"
  | submit => "submit"
  | validateAddress => "validate-address"

/-- What a command does. -/
def about : Verb → String
  | manifest => "Print the manifest an operation would submit"
  | operations => "List the known operations and their arguments"
  | balances => "Show fungible and non-fungible holdings of an account"
  | status => "Look up the status of a submitted transaction"
  | submit => "Build and submit an operation through the wallet relay"
  | validateAddress => "Check an address' checksum, entity kind and network"

/-- The command behind a word. -/
def ofWord? (word : String) : Option Verb :=
  all.find? fun verb => verb.word == word

end Verb

/-- A command with its arguments. -/
inductive Command where
  /-- print the manifest of an operation -/
  | manifest (account operation : String) (args : List String)
  /-- list the operations -/
  | operations
  /-- print what an account holds -/
  | balances (account : String)
  /-- print the status of a transaction -/
  | status (intentHash : String)
  /-- take an operation all the way -/
  | submit (operation : String) (args : List String) (message : Option String)
  /-- check an address -/
  | validateAddress (address : String) (kind : EntityKind)
deriving DecidableEq, Repr

/-- A command with the configuration it is to use. -/
structure Invocation where
  /-- The configuration file, if one is given. -/
  configPath : Option String
  /-- The public network to use where there is no configuration file. -/
  network : String
  command : Command
deriving DecidableEq, Repr

end LedgerClient
