/-
  Command lines: the options and words that the arguments of a program spell.

  * `Argument.ofText` tells options from words by their hyphens;
  * `Level.scan` reads the arguments of one level: the options it knows, each
    once, and as many words as it takes. The arguments before a command are a
    level, and those behind it another one;
  * reading may stop early (`Stop`): at a wish for help or for the version, or
    where the arguments are wrong, whichever comes first.
-/
import LedgerClient.Address
import LedgerClient.Text.Search

namespace LedgerClient

open Text

/-! ## Single arguments -/

/-- An argument by its form. -/
inductive Argument where
  /-- `--name` or `--name=value` -/
  | long (name : String) (value : Option String)
  /-- `-abc` -/
  | short (letters : List Char)
  /-- `--` alone, behind which all arguments are words -/
  | wordsOnly
  | word (text : String)
deriving DecidableEq, Repr

namespace Argument

/-- A long option with what follows its first equals sign. -/
def ofLong (cs : List Char) : Argument :=
  match cutAt? '=' cs with
  | some (name, value) => long (String.ofList name) (some (String.ofList value))
  | none => long (String.ofList cs) none

/-- Tells what an argument is. A hyphen alone is a word. -/
def ofText (text : String) : Argument :=
  match text.toList with
  | ['-'] => word text
  | ['-', '-'] => wordsOnly
  | '-' :: '-' :: cs => ofLong cs
  | '-' :: cs => short cs
  | _ => word text

/-- Whether an argument may stand behind an option as its value. -/
def isWord : Argument → Bool
  | word _ => true
  | _ => false

end Argument

/-! ## Levels -/

/-- Why reading stops early. -/
inductive Stop where
  | help
  | version
  | misuse
deriving DecidableEq, Repr

/-- A level of the command line. -/
structure Level where
  /-- The names of the options that it knows. -/
  options : List String
  /-- How many words it takes at most; `none` where there is no limit. -/
  maxWords : Option Nat
  /-- Whether it tells the version. -/
  tellsVersion : Bool
  /-- Whether its first word names a command, whose level follows. -/
  leadsOn : Bool

/-- What the arguments of a level spell. -/
structure Gathered where
  /-- The options with their values. -/
  options : List (String × String)
  /-- An option whose value has been read and not been checked. -/
  held : Option (String × String)
  words : List String
  /-- What follows the level: the word for a command, and the arguments behind it. -/
  rest : Option (String × List String)

namespace Gathered

/-- Nothing has been read. -/
def empty : Gathered := ⟨[], none, [], none⟩

/-- The value of an option. -/
def option? (g : Gathered) (name : String) : Option String :=
  g.options.lookup name

/-- Whether an option may have a value. -/
def allows (name value : String) : Bool :=
  match name with
  | "config" => value != ""
  | "kind" => (EntityKind.ofWord? value).isSome
  | _ => true

/-- Takes an option with its value, once. -/
def add (g : Gathered) (name value : String) : Except Stop Gathered :=
  if allows name value ∧ (g.option? name).isNone then
    .ok { g with options := (name, value) :: g.options }
  else .error .misuse

/-- Takes the option that is held. -/
def settle (g : Gathered) : Except Stop Gathered :=
  match g.held with
  | some (name, value) => add { g with held := none } name value
  | none => .ok g

end Gathered

namespace Level

/-- Takes a word, if there is room for it. -/
def takeWord (level : Level) (g : Gathered) (word : String) : Except Stop Gathered :=
  if level.maxWords.all (g.words.length < ·) then .ok { g with words := g.words ++ [word] }
  else .error .misuse

/-- The wish behind a letter. -/
def stopAt (level : Level) : List Char → Stop
  | 'h' :: _ => .help
  | 'V' :: _ => if level.tellsVersion then .version else .misuse
  | _ => .misuse

/-- The wish behind a long option without a value. -/
def wish? (level : Level) (name : String) : Option Stop :=
  if name = "help" then some .help
  else if name = "version" ∧ level.tellsVersion then some .version
  else none

/-- Reads the arguments of a level. A value that stands apart from its option is
    checked when the next option of the level is read, or at the level's end. -/
def scan (level : Level) (g : Gathered) : List String → Except Stop Gathered
  | [] => .ok g
  | argument :: arguments =>
    match Argument.ofText argument with
    | .word text =>
      if level.leadsOn then .ok { g with rest := some (text, arguments) }
      else do scan level (← level.takeWord g text) arguments
    | .wordsOnly =>
      if level.leadsOn then .error .misuse
      else arguments.foldlM level.takeWord g
    | .short letters => do
      let _ ← g.settle
      .error (level.stopAt letters)
    | .long name (some value) => do
      if level.options.contains name then scan level (← (← g.settle).add name value) arguments
      else .error .misuse
    | .long name none => do
      let g ← g.settle
      match level.wish? name, arguments with
      | some stop, _ => .error stop
      | none, value :: arguments =>
        if level.options.contains name ∧ (Argument.ofText value).isWord then
          scan level { g with held := some (name, value) } arguments
        else .error .misuse
      | none, [] => .error .misuse

end Level

end LedgerClient
