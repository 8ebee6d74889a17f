/-
  A world for dry runs: a scripted wallet, a gateway with given documents, a
  store for the connected account and a clock.

  * `World.reply` answers every question, and `World.due` is the time at which
    the answer comes: waiting takes the time that is asked for, signing the
    delay of the wallet, and everything else no time;
  * `World.outside` puts the two together.
-/
import LedgerClient.AccountFile
import LedgerClient.DryRun.Gateway
import LedgerClient.DryRun.Outside
import LedgerClient.DryRun.Wallet
import LedgerClient.Question

namespace LedgerClient.DryRun

/-! ## Stores -/

/-- What is found where the file of the connected account should be. -/
inductive Place where
  | vacant
  | file (content : String)
  | directory
deriving DecidableEq, Repr

/-- Where the connected account is kept. -/
inductive Store where
  | memory (account : Option AccountRef)
  | onDisk (place : Place)

namespace Store

/-- The fault of a file that turns out to be a directory. -/
def blocked : Fault :=
  .io (.quoted "is a directory")

/-- The account in the store. -/
def load : Store → Except Fault (Option AccountRef)
  | memory account => .ok account
  | onDisk .vacant => AccountFile.ofContent none
  | onDisk (.file content) => AccountFile.ofContent (some content)
  | onDisk .directory => .error blocked

/-- Puts an account into the store. -/
def save (account : AccountRef) : Store → Except Fault Unit × Store
  | memory _ => (.ok (), memory (some account))
  | onDisk .directory => (.error blocked, onDisk .directory)
  | onDisk _ => (.ok (), onDisk (.file (AccountFile.text account)))

/-- Empties the store. -/
def clear : Store → Except Fault Unit × Store
  | memory _ => (.ok (), memory none)
  | onDisk .directory => (.error blocked, onDisk .directory)
  | onDisk _ => (.ok (), onDisk .vacant)

end Store

/-! ## Worlds -/

/-- All that answers questions in a dry run. -/
structure World where
  /-- The time in milliseconds. -/
  now : Nat
  wallet : Wallet
  gateway : Gateway
  store : Store
  /-- The number of refreshes so far, and whether they fail. -/
  refreshes : Nat
  refreshFails : Bool

namespace World

/-- The time at which the answer to a question comes. -/
def due (w : World) : Question → Nat
  | .wait ms => w.now + ms
  | .sign _ => w.now + w.wallet.delayMs
  | _ => w.now

/-- The answer to a question, and the world after it. -/
def reply (w : World) : (q : Question) → q.Answer × World
  | .accounts => (.ok w.wallet.accounts, w)
  | .sign request =>
    let (answer, wallet) := w.wallet.sign request
    (answer, { w with wallet := wallet })
  | .entities addresses =>
    let gateway := { w.gateway with entityCalls := w.gateway.entityCalls + 1 }
    (gateway.describe addresses, { w with gateway := gateway })
  | .component address => (w.gateway.component address, w)
  | .nonFungible resource id => (w.gateway.nonFungible resource id, w)
  | .status intentHash =>
    let (answer, gateway) := w.gateway.status intentHash
    (answer, { w with gateway := gateway })
  | .details intentHash => (w.gateway.details intentHash, w)
  | .load => (w.store.load, w)
  | .save account =>
    let (answer, store) := w.store.save account
    (answer, { w with store := store })
  | .clear =>
    let (answer, store) := w.store.clear
    (answer, { w with store := store })
  | .refresh =>
    (if w.refreshFails then .error (.networkFailure (.own "refresh failed")) else .ok (),
     { w with refreshes := w.refreshes + 1 })
  | .wait _ => ((), w)
  | .now => (w.now, w)

/-- The world as an outside. -/
def outside : Outside Question Question.Answer World where
  now := now
  setNow := fun time w => { w with now := time }
  due := due
  reply := reply

end World

end LedgerClient.DryRun
