/-
  Reading command lines.

  * `Verb.level` is the level behind the word for a command, and `Verb.command?`
    the command that it spells;
  * `Invocation.ofArguments` reads the arguments of the program. The options
    that say which configuration to use may stand before and behind the word
    for the command; those behind it count.
-/
import LedgerClient.Command
import LedgerClient.Command.Arguments

namespace LedgerClient

/-- The options of every level: which configuration to use. -/
def Level.everywhere : List String := ["config", "network"]

/-- The level before the word for a command. -/
def Level.outer : Level :=
  ⟨everywhere, some 0, true, true⟩

namespace Verb

/-- The level behind a command with the given options and number of words. -/
def levelWith (options : List String) (maxWords : Option Nat) : Level :=
  ⟨options ++ Level.everywhere, maxWords, false, false⟩

/-- The level behind a command. -/
def level : Verb → Level
  | manifest => levelWith ["account"] none
  | operations => levelWith [] (some 0)
  | balances => levelWith ["account"] (some 0)
  | status => levelWith ["intent-hash"] (some 0)
  | submit => levelWith ["message"] none
  | validateAddress => levelWith ["kind"] (some 1)

/-- The command that the arguments behind its word spell. -/
def command? (verb : Verb) (g : Gathered) : Option Command :=
  match verb, g.words with
  | manifest, operation :: args =>
    (g.option? "account").map fun account => .manifest account operation args
  | operations, [] => some .operations
  | balances, [] => (g.option? "account").map .balances
  | status, [] => (g.option? "intent-hash").map .status
  | submit, operation :: args => some (.submit operation args (g.option? "message"))
  | validateAddress, [address] =>
    some (.validateAddress address (((g.option? "kind").bind EntityKind.ofWord?).getD .account))
  | _, _ => none

end Verb

namespace Invocation

/-- The network that is used where none is named. -/
def usualNetwork : String := "stokenet"

/-- What the arguments behind `help` ask for: help about one command, or about all. -/
def helpAbout : List String → Stop
  | [] => .help
  | [word] => if word = "help" ∨ (Verb.ofWord? word).isSome then .help else .misuse
  | _ => .misuse

/-- Reads the arguments behind the word for a command. -/
def ofInner (outer : Gathered) (verb : Verb) (arguments : List String) :
    Except Stop Invocation := do
  let inner ← (← verb.level.scan .empty arguments).settle
  let command ← (verb.command? inner).elim (.error .misuse) .ok
  let outer ← outer.settle
  let option? (name : String) : Option String := inner.option? name <|> outer.option? name
  pure ⟨option? "config", (option? "network").getD usualNetwork, command⟩

/-- Reads the arguments of the program. -/
def ofArguments (arguments : List String) : Except Stop Invocation := do
  let outer ← Level.outer.scan .empty arguments
  match outer.rest with
  | none => .error .misuse
  | some ("help", words) => .error (helpAbout words)
  | some (word, arguments) =>
    match Verb.ofWord? word with
    | some verb => ofInner outer verb arguments
    | none => .error .misuse

end Invocation

end LedgerClient
