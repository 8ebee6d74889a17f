/-
  Entities as the gateway describes them.

  * `Entity` is an account or component: its fungible and non-fungible
    resources, vault by vault where they are listed so, and its state;
  * `Entity.ofJson?` reads it. Amounts are kept as texts, because only the
    balances of an account give them a meaning.
-/
import LedgerClient.Json.Record

namespace LedgerClient

/-! ## Vaults and resources -/

/-- A vault with an amount of a fungible resource. -/
structure FungibleVault where
  address : String
  amount : String
deriving DecidableEq

/-- A fungible resource of an entity: its vaults, or its amount alone. -/
structure FungibleResource where
  address : String
  amount : Option String
  vaults : Option (List FungibleVault)
deriving DecidableEq

/-- A vault with non-fungibles. -/
structure NonFungibleVault where
  address : String
  count : Nat
  ids : List String
deriving DecidableEq

/-- A non-fungible resource of an entity: its vaults, or its number alone. -/
structure NonFungibleResource where
  address : String
  amount : Option Nat
  vaults : Option (List NonFungibleVault)
deriving DecidableEq

/-- What kind of thing an entity is, and the state of a component. -/
structure EntityDetails where
  kind : String
  state : Option Json

/-- An entity. -/
structure Entity where
  address : String
  fungibles : Option (List FungibleResource)
  nonFungibles : Option (List NonFungibleResource)
  details : Option EntityDetails

/-! ## Reading -/

/-- A page of a longer list: a record with its items, which may be missing. -/
def Json.page? {α : Type} (read : Json → Option α) (j : Json) : Option (List α) := do
  let ms ← record? [.may "items"] j
  defaulted? ms "items" (listOf? read) []

/-- Reads a vault. -/
def FungibleVault.ofJson? (j : Json) : Option FungibleVault := do
  let ms ← Json.record? [.must "vault_address", .must "amount"] j
  let address ← Json.required? ms "vault_address" Json.str?
  let amount ← Json.required? ms "amount" Json.str?
  pure ⟨address, amount⟩

/-- Reads a resource. -/
def FungibleResource.ofJson? (j : Json) : Option FungibleResource := do
  let ms ← Json.record? [.must "resource_address", .may "amount", .may "vaults"] j
  let address ← Json.required? ms "resource_address" Json.str?
  let amount ← Json.optional? ms "amount" Json.str?
  let vaults ← Json.optional? ms "vaults" (Json.page? FungibleVault.ofJson?)
  pure ⟨address, amount, vaults⟩

/-- Reads a vault. -/
def NonFungibleVault.ofJson? (j : Json) : Option NonFungibleVault := do
  let ms ← Json.record? [.must "vault_address", .must "total_count", .may "items"] j
  let address ← Json.required? ms "vault_address" Json.str?
  let count ← Json.required? ms "total_count" (Json.nat? (twoTo 64))
  let ids ← Json.defaulted? ms "items" (Json.listOf? Json.str?) []
  pure ⟨address, count, ids⟩

/-- Reads a resource. -/
def NonFungibleResource.ofJson? (j : Json) : Option NonFungibleResource := do
  let ms ← Json.record? [.must "resource_address", .may "amount", .may "vaults"] j
  let address ← Json.required? ms "resource_address" Json.str?
  let amount ← Json.optional? ms "amount" (Json.nat? (twoTo 64))
  let vaults ← Json.optional? ms "vaults" (Json.page? NonFungibleVault.ofJson?)
  pure ⟨address, amount, vaults⟩

/-- Reads the details of an entity. -/
def EntityDetails.ofJson? (j : Json) : Option EntityDetails := do
  let ms ← Json.record? [.must "type", .may "state"] j
  let kind ← Json.required? ms "type" Json.str?
  let state ← Json.optional? ms "state" fun state => some state.settle
  pure ⟨kind, state⟩

/-- Reads an entity. -/
def Entity.ofJson? (j : Json) : Option Entity := do
  let ms ← Json.record?
    [.must "address", .may "fungible_resources", .may "non_fungible_resources", .may "details"] j
  let address ← Json.required? ms "address" Json.str?
  let fungibles ← Json.optional? ms "fungible_resources" (Json.page? FungibleResource.ofJson?)
  let nonFungibles ←
    Json.optional? ms "non_fungible_resources" (Json.page? NonFungibleResource.ofJson?)
  let details ← Json.optional? ms "details" EntityDetails.ofJson?
  pure ⟨address, fungibles, nonFungibles, details⟩

end LedgerClient
