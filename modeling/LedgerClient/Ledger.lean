/-
  Reading the ledger through the gateway.

  * `Ledger.entity` and `Ledger.entities` read entities, `Ledger.balances` and
    `Ledger.resourceAmount` the balances of an account;
  * `Ledger.componentState` decodes the state of a component against a schema,
    `Ledger.legacyComponentState` does so for the older form of documents;
  * `Ledger.nonFungibleFields` are the data fields of a non-fungible, and
    `Ledger.stakerInfo` the staking position that they describe.
-/
import LedgerClient.Json.Reader
import LedgerClient.Question
import LedgerClient.Staker
import LedgerClient.State.Legacy
import LedgerClient.State.Payload
import LedgerClient.State.Schema

namespace LedgerClient.Ledger

/-! ## Entities -/

/-- The entity of an address among those the gateway answered with. -/
def select (address : String) (items : List Entity) : Except Fault Entity :=
  match items.find? fun item => item.address == address with
  | some item => .ok item
  | none => .error (.schemaMismatch "items" address "missing")

/-- The entity of an address. -/
def entity (address : String) : Attempt Entity := do
  select address (← Ask.entities [address])

/-- The entities of several addresses in order; all of them or none. -/
def entities (addresses : List String) : Attempt (List Entity) :=
  addresses.mapM entity

/-! ## Balances -/

/-- The balances of an account. -/
def balances (account : AccountRef) : Attempt Balances := do
  Balances.ofEntity (← entity account.address)

/-- The amount that an account holds of a resource. -/
def resourceAmount (account : AccountRef) (resource : String) : Attempt Amount := do
  pure ((← balances account).fungible resource)

/-- What a component owns of a resource, by the older form of documents. -/
def ownedAmount (resource : String) (c : ComponentDocument) : Except Fault Amount :=
  match c.owned.find? fun r => r.address == resource with
  | some owned => Balances.gatewayAmount owned.amount
  | none => .ok .zero

/-- What a component owns of a resource. -/
def legacyBalance (address resource : String) : Attempt Amount := do
  ownedAmount resource (← Ask.component address)

/-! ## State -/

/-- The state of an entity, decoded against a schema. -/
def decodeState (schema : State.Schema) (item : Entity) : Except Fault State.Fields := do
  match item.details.bind (·.state) with
  | some state => schema.decode (← State.Node.ofPayload state)
  | none => .error (.schemaMismatch "details.state" "component state" "missing")

/-- The state of a component, decoded against a schema. -/
def componentState (address : String) (schema : State.Schema) : Attempt State.Fields := do
  decodeState schema (← entity address)

/-- The state in an older document, decoded against a schema. -/
def decodeDocument (schema : State.Schema) (c : ComponentDocument) :
    Except Fault State.Fields := do
  match Json.read? c.state with
  | some document => schema.decode (← State.Node.ofLegacy document.settle)
  | none => .error (.schemaMismatch "state" "JSON document" (.quoted "another text"))

/-- The state of a component in the older form, decoded against a schema. -/
def legacyComponentState (address : String) (schema : State.Schema) : Attempt State.Fields := do
  decodeDocument schema (← Ask.component address)

/-! ## Non-fungibles -/

/-- The value of a data field as text. -/
def fieldValue (field : Json) : String :=
  match field.member? "value" with
  | some (.str s) => s
  | some other => other.settledText
  | none => ""

/-- The values of the data fields in a document. -/
def fieldValues (document : String) : Except Fault (List String) :=
  match Json.read? document with
  | none => .error (.serialization (.quoted "not a JSON document"))
  | some j =>
    match (j.member? "fields").bind Json.arr? with
    | some fields => .ok (fields.map fieldValue)
    | none => .error (.schemaMismatch "fields" "Array" j.settledText)

/-- The values of all data fields of a non-fungible, the immutable ones first. -/
def allFieldValues (nft : NonFungibleDocument) : Except Fault (List String) := do
  let immutable ← fieldValues nft.immutableData
  let mutable ← fieldValues nft.mutableData
  pure (immutable ++ mutable)

/-- The data fields of a non-fungible. -/
def nonFungibleFields (resource id : String) : Attempt (List String) := do
  allFieldValues (← Ask.nonFungible resource id)

/-- The staking position behind a badge. -/
def stakerInfo (resource id : String) : Attempt StakerInfo := do
  StakerInfo.ofFields (← nonFungibleFields resource id)

end LedgerClient.Ledger
