/-
  The program on the command line.

  * `Shell.reply` runs the errands of a command: files, time and the
    environment are those of the computer. The program brings no transport of
    its own, so every request to the web ends as unreachable;
  * the exit code is `0`, or `1` after a complaint and `2` where the arguments
    are wrong.
-/
import LedgerClient.Command.Printout
import LedgerClient.Command.Reader

namespace LedgerClient.Shell

/-! ## Errands -/

/-- The fault behind an error of the operating system. -/
def faultOf (error : IO.Error) : Fault :=
  .io (.quoted (toString error))

/-- Whether an error says that there is no such file. -/
def isMissing : IO.Error → Bool
  | .noFileOrDirectory .. => true
  | _ => false

/-- Does something with files; a missing one may be excused. -/
def attempt {α : Type} (action : IO α) (missing : Option α) : IO (Except Fault α) := do
  try
    return .ok (← action)
  catch error =>
    match isMissing error, missing with
    | true, some a => return .ok a
    | _, _ => return .error (faultOf error)

/-- The directory of a path, if the path names one. -/
def directoryOf? (path : String) : Option String :=
  match Text.cutAtLast? '/' path.toList with
  | some ([], _) | none => none
  | some (directory, _) => some (String.ofList directory)

/-- Writes a file, and the directories on the way to it. -/
def writeFile (path content : String) : IO Unit := do
  if let some directory := directoryOf? path then
    IO.FS.createDirAll directory
  IO.FS.writeFile path content

/-- Runs an errand. -/
def reply (memory : IO.Ref (Option AccountRef)) : (e : Errand) → IO e.Answer
  | .send _ => pure (.error .unreachable)
  | .remembered => memory.get
  | .remember account => memory.set account
  | .readFile path => attempt (some <$> IO.FS.readFile path) (some none)
  | .writeFile path content => attempt (writeFile path content) none
  | .removeFile path => attempt (IO.FS.removeFile path) (some ())
  | .refresh => pure (.ok ())
  | .wait ms => IO.sleep (min ms (twoTo 32 - 1)).toUInt32
  | .now => IO.monoMsNow

/-! ## The environment -/

/-- The environment variables that count. -/
def knownVariables : List String :=
  ["DAPP_NETWORK", "DAPP_GATEWAY_URL", "DAPP_WALLET_RELAY_URL", "DAPP_ACCOUNT_STORE"] ++
    Slot.all.map Slot.envVariable

/-- The values of the environment variables that count. -/
def environment : IO Config.Environment := do
  let values ← knownVariables.mapM fun name => do return (name, ← IO.getEnv name)
  return fun name => (values.lookup name).join

/-! ## Output -/

/-- What is printed on request. -/
def help : String :=
  let commands := Verb.all.map fun verb => "  " ++ verb.word ++ ": " ++ verb.about
  Text.joinWith "\n"
    (["Build, inspect and submit ledger transaction manifests", "",
      "Usage: dapp-cli [--config PATH] [--network NAME] <COMMAND>", "", "Commands:"] ++ commands) ++
    "\n"

/-- Prints a text where errors are printed. -/
def complain (text : String) : IO Unit := do
  (← IO.getStderr).putStr text

/-- Carries an invocation out: its exit code. -/
def invoke (i : Invocation) : IO UInt32 := do
  let memory ← IO.mkRef none
  let (printout, _) ← (i.carryOut (← environment)).run (reply memory) Desk.fresh
  IO.print printout.text
  match printout.complaint with
  | some complaint =>
    complain ("Error: " ++ complaint.message ++ "\n")
    return 1
  | none => return 0

end LedgerClient.Shell

/-- Reads the command line and carries out what it asks for. -/
def main (arguments : List String) : IO UInt32 := do
  match LedgerClient.Invocation.ofArguments arguments with
  | .ok invocation => LedgerClient.Shell.invoke invocation
  | .error .help =>
    IO.print LedgerClient.Shell.help
    return 0
  | .error .version =>
    IO.print LedgerClient.Invocation.version
    return 0
  | .error .misuse =>
    LedgerClient.Shell.complain LedgerClient.Shell.help
    return 2
