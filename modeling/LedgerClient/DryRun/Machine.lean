/-
  A machine for dry runs: a network, files, a place in memory and a clock.

  * `Machine.reply` runs every errand. A response from the network takes
    `latencyMs`, waiting takes the time that is asked for, and everything else
    no time;
  * `Machine.outside` puts the two together.
-/
import LedgerClient.DryRun.Network
import LedgerClient.DryRun.Outside
import LedgerClient.DryRun.World
import LedgerClient.Errand

namespace LedgerClient.DryRun

/-- All that errands lead to in a dry run. -/
structure Machine where
  /-- The time in milliseconds. -/
  now : Nat
  network : Network
  /-- What is found at the paths of the disk, the last change first. -/
  disk : List (String × Place)
  /-- The account kept in memory. -/
  memory : Option AccountRef
  /-- The number of refreshes so far, and whether they fail. -/
  refreshes : Nat
  refreshFails : Bool

namespace Machine

/-! ## Files -/

/-- What is found at a path. -/
def find (m : Machine) (path : String) : Place :=
  (m.disk.lookup path).getD .vacant

/-- Puts something at a path. -/
def put (path : String) (place : Place) (m : Machine) : Machine :=
  { m with disk := (path, place) :: m.disk }

/-- Reads a file. -/
def readFile (path : String) (m : Machine) : Except Fault (Option String) :=
  match m.find path with
  | .vacant => .ok none
  | .file content => .ok (some content)
  | .directory => .error Store.blocked

/-- Puts a file, or nothing, at a path where no directory is. -/
def replaceFile (path : String) (place : Place) (m : Machine) : Except Fault Unit × Machine :=
  match m.find path with
  | .directory => (.error Store.blocked, m)
  | _ => (.ok (), m.put path place)

/-! ## Errands -/

/-- How long the network takes for a response. -/
def latencyMs : Nat := 2

/-- The time at which an errand is done. -/
def due (m : Machine) : Errand → Nat
  | .wait ms => m.now + ms
  | .send _ => m.now + latencyMs
  | _ => m.now

/-- What comes back from an errand, and the machine after it. -/
def reply (m : Machine) : (e : Errand) → e.Answer × Machine
  | .send request =>
    let (answer, network) := m.network.send request
    (answer, { m with network := network })
  | .remembered => (m.memory, m)
  | .remember account => ((), { m with memory := account })
  | .readFile path => (m.readFile path, m)
  | .writeFile path content => m.replaceFile path (.file content)
  | .removeFile path => m.replaceFile path .vacant
  | .refresh =>
    (if m.refreshFails then .error (.networkFailure (.own "refresh failed")) else .ok (),
     { m with refreshes := m.refreshes + 1 })
  | .wait _ => ((), m)
  | .now => (m.now, m)

/-- The machine as an outside. -/
def outside : Outside Errand Errand.Answer Machine where
  now := now
  setNow := fun time m => { m with now := time }
  due := due
  reply := reply

end Machine

end LedgerClient.DryRun
