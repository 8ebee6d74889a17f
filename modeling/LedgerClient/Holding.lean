/-
  Holdings: what an entity owns of a resource.

  * `ResourceBalance` is an amount of a fungible resource;
  * `NonFungibleHolding` is a number of non-fungibles and their local ids.
-/
import LedgerClient.Amount
import LedgerClient.Json.Record

namespace LedgerClient

/-- An amount as a JSON string, where one can be read. -/
def Amount.ofJson? (j : Json) : Option Amount :=
  j.str?.bind fun s => (Amount.parse s).toOption

/-- An amount of a fungible resource. -/
structure ResourceBalance where
  resource : String
  amount : Amount
deriving DecidableEq

namespace ResourceBalance

/-- Reads a balance. -/
def ofJson? (j : Json) : Option ResourceBalance := do
  let ms ← Json.record? [.must "resource_address", .must "amount"] j
  let resource ← Json.required? ms "resource_address" Json.str?
  let amount ← Json.required? ms "amount" Amount.ofJson?
  pure ⟨resource, amount⟩

/-- Writes a balance. -/
def toJson (b : ResourceBalance) : Json :=
  .obj [("resource_address", .str b.resource), ("amount", .str b.amount.text)]

end ResourceBalance

/-- Non-fungibles of one resource. -/
structure NonFungibleHolding where
  resource : String
  count : Nat
  ids : List String
deriving DecidableEq

namespace NonFungibleHolding

/-- Reads a holding. -/
def ofJson? (j : Json) : Option NonFungibleHolding := do
  let ms ← Json.record? [.must "resource_address", .must "count", .may "ids"] j
  let resource ← Json.required? ms "resource_address" Json.str?
  let count ← Json.required? ms "count" (Json.nat? (twoTo 64))
  let ids ← Json.defaulted? ms "ids" (Json.listOf? Json.str?) []
  pure ⟨resource, count, ids⟩

/-- Writes a holding. -/
def toJson (h : NonFungibleHolding) : Json :=
  .obj [("resource_address", .str h.resource), ("count", .nat h.count), ("ids", .strings h.ids)]

end NonFungibleHolding

end LedgerClient
