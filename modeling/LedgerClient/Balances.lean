/-
  Balances: what an account holds, added up over its vaults.

  * `Balances.ofEntity` reads the balances of an entity: every fungible
    resource with the sum of its vaults, every non-fungible resource with its
    number and ids, and every vault with its amount. Resources of which nothing
    is held are left out;
  * `Balances.fungible` and `Balances.nonFungibleCount` look a resource up.
-/
import LedgerClient.Fault
import LedgerClient.Gateway.Entity
import LedgerClient.Holding

namespace LedgerClient

/-- Amounts by the address of the vault they are in. -/
abbrev VaultAmounts := List (String × Amount)

/-- Sets the amount of a vault. -/
def VaultAmounts.insert (address : String) (amount : Amount) : VaultAmounts → VaultAmounts
  | [] => [(address, amount)]
  | (a, x) :: rest =>
    if a = address then (a, amount) :: rest else (a, x) :: VaultAmounts.insert address amount rest

/-- What an account holds. -/
structure Balances where
  address : String
  fungibles : List ResourceBalance
  nonFungibles : List NonFungibleHolding
  vaults : VaultAmounts
deriving DecidableEq

namespace Balances

/-! ## Looking up -/

/-- The amount held of a resource, zero where there is none. -/
def fungible (b : Balances) (resource : String) : Amount :=
  match b.fungibles.find? (·.resource == resource) with
  | some balance => balance.amount
  | none => .zero

/-- The number of non-fungibles held of a resource. -/
def nonFungibleCount (b : Balances) (resource : String) : Nat :=
  match b.nonFungibles.find? (·.resource == resource) with
  | some holding => holding.count
  | none => 0

/-! ## Fungible resources -/

/-- Reads an amount that the gateway gives. -/
def gatewayAmount (raw : String) : Except Fault Amount :=
  Amount.parseOr (.schemaMismatch "amount" "Decimal" raw) raw

/-- Adds a vault of a resource to the sum so far, and notes its amount. -/
def addVault (resource : String) (sofar : Amount × VaultAmounts) (vault : FungibleVault) :
    Except Fault (Amount × VaultAmounts) := do
  let amount ← gatewayAmount vault.amount
  match sofar.1.checkedAdd amount with
  | some total => pure (total, sofar.2.insert vault.address amount)
  | none => .error (.schemaMismatch resource "Decimal" "overflow")

/-- The total of a resource, with the amounts of its vaults added to the others. -/
def total (vaults : VaultAmounts) (r : FungibleResource) : Except Fault (Amount × VaultAmounts) :=
  match r.vaults, r.amount with
  | some page, _ => page.foldlM (addVault r.address) (.zero, vaults)
  | none, some raw => (gatewayAmount raw).map (·, vaults)
  | none, none => .ok (.zero, vaults)

/-- Adds a fungible resource to the balances, if anything is held of it. -/
def addFungible (b : Balances) (r : FungibleResource) : Except Fault Balances := do
  let (amount, vaults) ← total b.vaults r
  let held := if amount.isZero then [] else [⟨r.address, amount⟩]
  pure { b with fungibles := b.fungibles ++ held, vaults := vaults }

/-! ## Non-fungible resources -/

/-- The number of non-fungibles of a resource. -/
def count (r : NonFungibleResource) : Nat :=
  match r.vaults with
  | some page => page.foldr (fun vault sum => vault.count + sum) 0
  | none => r.amount.getD 0

/-- The local ids of a resource, vault by vault. -/
def ids (r : NonFungibleResource) : List String :=
  (r.vaults.getD []).flatMap (·.ids)

/-- The holding of a non-fungible resource, if there is one. -/
def holding? (r : NonFungibleResource) : Option NonFungibleHolding :=
  if 0 < count r then some ⟨r.address, count r, ids r⟩ else none

/-! ## Entities -/

/-- The balances of an entity. -/
def ofEntity (entity : Entity) : Except Fault Balances :=
  let holdings := (entity.nonFungibles.getD []).filterMap holding?
  (entity.fungibles.getD []).foldlM addFungible ⟨entity.address, [], holdings, []⟩

/-- Writes balances. -/
def toJson (b : Balances) : Json :=
  .obj
    [("address", .str b.address), ("fungibles", .arr (b.fungibles.map (·.toJson))),
     ("non_fungibles", .arr (b.nonFungibles.map (·.toJson))),
     ("vaults", .obj (b.vaults.map fun (address, amount) => (address, .str amount.text)))]

end Balances

end LedgerClient
