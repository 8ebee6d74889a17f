/-
  The connection: which account of the wallet the user acts as.

  * the first account with an address that is not blank is the connected one;
  * `Connection.update` takes over the accounts that the wallet reports, and
    brings the store up to date where the connected account has changed;
  * `Connection.resolve` asks the wallet first, `Connection.restore` takes the
    account from the store.
-/
import LedgerClient.Question

namespace LedgerClient.Connection

/-- The first account with an address that is not blank. -/
def first? (accounts : List WalletAccount) : Option AccountRef :=
  accounts.findSome? fun a => AccountRef.ofText? a.address

/-- Puts the connected account into the store, or nothing where there is none. -/
def write : Option AccountRef → Attempt Unit
  | some account => Ask.save account
  | none => Ask.clear

/-- Takes over the accounts that the wallet reports: the connected account is
    replaced first, and then written to the store if it has changed and there
    is a store. -/
def update (stored : Bool) (accounts : List WalletAccount) : Attempt (Option AccountRef) := do
  let next := first? accounts
  let before ← Work.exchange (Desk.setAccount next)
  if stored ∧ before.account ≠ next then
    write next
  pure next

/-- The account that the wallet reports now. -/
def resolve (stored : Bool) : Attempt AccountRef := do
  match ← update stored (← Ask.accounts) with
  | some account => pure account
  | none => throw .notConnected

/-- Takes the connected account from the store, where there is one in it. -/
def restore (stored : Bool) : Attempt (Option AccountRef) := do
  if stored then
    let account ← Ask.load
    if account.isSome then
      Work.modify (Desk.setAccount account)
    pure account
  else
    pure none

end LedgerClient.Connection
