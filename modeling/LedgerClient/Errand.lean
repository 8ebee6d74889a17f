/-
  Errands: what the answers to questions take.

  * `Errand` lists what is done outside: requests over the web, reading and
    writing files, keeping the account in memory, waiting;
  * `Errand.Answer` is the type of what comes back, and `Legwork` a job on the
    desk that runs such errands;
  * in the namespace `Errand` are also the single errands.
-/
import LedgerClient.Desk
import LedgerClient.Http.Message
import LedgerClient.Job

namespace LedgerClient

/-- Something that is done outside. -/
inductive Errand where
  | send (request : Http.Request)
  -- the account kept in memory
  | remembered
  | remember (account : Option AccountRef)
  -- files
  | readFile (path : String)
  | writeFile (path content : String)
  | removeFile (path : String)
  /-- to let whoever shows the ledger read it again -/
  | refresh
  /-- to let a number of milliseconds pass -/
  | wait (ms : Nat)
  /-- the time in milliseconds -/
  | now

/-- The type of what comes back from an errand. The content of a file is `none`
    where there is no file. -/
@[reducible] def Errand.Answer : Errand → Type
  | send _ => Except Http.Failure Http.Response
  | remembered => Option AccountRef
  | readFile _ => Except Fault (Option String)
  | writeFile _ _ | removeFile _ | refresh => Except Fault Unit
  | remember _ | wait _ => Unit
  | now => Nat

/-- A job on the desk that runs errands. -/
abbrev Legwork (α : Type) := Job Desk Errand Errand.Answer α

namespace Errand

/-- The job of one errand. -/
def run (e : Errand) : Legwork e.Answer :=
  Job.request e

/-- Sends a request, if it is one that can be sent. -/
def fetch : Option Http.Request → Legwork (Except Http.Failure Http.Response)
  | some request => run (.send request)
  | none => pure (.error .unsendable)

end Errand

end LedgerClient
