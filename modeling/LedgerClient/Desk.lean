/-
  The desk: what the runs of one flow share.

  * `Phase` is what the user sees of a submission;
  * `Desk` holds the flag of the run under way, the phase, the connected
    account, the balances last read, the metrics and the notices given so far.
-/
import LedgerClient.Account
import LedgerClient.Balances
import LedgerClient.Metrics
import LedgerClient.Notice

namespace LedgerClient

/-- How far a submission has come. -/
inductive Phase where
  | idle
  | submitting
  | succeeded
  | failed
deriving DecidableEq, Repr

/-- The name of a phase. -/
def Phase.name : Phase → String
  | idle => "Idle"
  | submitting => "Submitting"
  | succeeded => "Succeeded"
  | failed => "Failed"

/-- What the runs of a flow share. -/
structure Desk where
  /-- Whether a run is under way. -/
  busy : Bool
  phase : Phase
  /-- The connected account, as far as it is known. -/
  account : Option AccountRef
  /-- The balances read after the last success. -/
  balances : Option Balances
  metrics : Metrics
  /-- The notices given to the user, the oldest first. -/
  notices : List Notice

namespace Desk

/-- The desk before anything happened. -/
def fresh : Desk :=
  ⟨false, .idle, none, none, .empty, []⟩

def setBusy (busy : Bool) (d : Desk) : Desk :=
  { d with busy := busy }

def setPhase (phase : Phase) (d : Desk) : Desk :=
  { d with phase := phase }

def setAccount (account : Option AccountRef) (d : Desk) : Desk :=
  { d with account := account }

def setBalances (balances : Balances) (d : Desk) : Desk :=
  { d with balances := some balances }

/-- Gives a notice to the user. -/
def notify (notice : Notice) (d : Desk) : Desk :=
  { d with notices := d.notices ++ [notice] }

/-- Records something in the metrics. -/
def record (change : Metrics → Metrics) (d : Desk) : Desk :=
  { d with metrics := change d.metrics }

end Desk

end LedgerClient
