/-
  What the gateway answers about transactions, and about components and
  non-fungibles in the older form of documents.

  * `TransactionStatus` is the answer to a poll;
  * `CommittedDetails` tells what became of a committed transaction;
  * `ComponentDocument` and `NonFungibleDocument` hold state as texts, which
    are JSON documents themselves.
-/
import LedgerClient.Json.Record
import LedgerClient.Timestamp.Reader

namespace LedgerClient

/-! ## Transactions -/

/-- The state of a transaction at some moment. -/
structure TransactionStatus where
  status : String
  intentStatus : Option String
  errorMessage : Option String
deriving DecidableEq

/-- Reads the answer to a poll. -/
def TransactionStatus.ofJson? (j : Json) : Option TransactionStatus := do
  let ms ← Json.record? [.must "status", .may "intent_status", .may "error_message"] j
  let status ← Json.required? ms "status" Json.str?
  let intentStatus ← Json.optional? ms "intent_status" Json.str?
  let errorMessage ← Json.optional? ms "error_message" Json.str?
  pure ⟨status, intentStatus, errorMessage⟩

/-- An entity that a transaction created. -/
structure NewEntity where
  kind : String
  address : String
deriving DecidableEq

/-- Reads a new entity. -/
def NewEntity.ofJson? (j : Json) : Option NewEntity := do
  let ms ← Json.record? [.must "entity_type", .must "entity_address"] j
  let kind ← Json.required? ms "entity_type" Json.str?
  let address ← Json.required? ms "entity_address" Json.str?
  pure ⟨kind, address⟩

/-- What the engine reports about the execution of a transaction. -/
structure EngineReport where
  errorMessage : Option String
  newEntities : Option (List NewEntity)
  /-- The names of the events. -/
  events : List String
deriving DecidableEq

/-- Reads the list of new entities out of the changes of state. -/
def newEntities? (j : Json) : Option (List NewEntity) := do
  let ms ← Json.record? [.may "new_global_entities"] j
  Json.defaulted? ms "new_global_entities" (Json.listOf? NewEntity.ofJson?) []

/-- Reads the name of an event. -/
def eventName? (j : Json) : Option String := do
  let ms ← Json.record? [.must "name"] j
  Json.required? ms "name" Json.str?

/-- Reads a report of the engine. -/
def EngineReport.ofJson? (j : Json) : Option EngineReport := do
  let ms ← Json.record?
    [.may "status", .may "error_message", .may "state_updates", .may "events"] j
  let _ ← Json.optional? ms "status" Json.str?
  let errorMessage ← Json.optional? ms "error_message" Json.str?
  let newEntities ← Json.optional? ms "state_updates" newEntities?
  let events ← Json.defaulted? ms "events" (Json.listOf? eventName?) []
  pure ⟨errorMessage, newEntities, events⟩

/-- What became of a committed transaction. -/
structure CommittedDetails where
  status : String
  intentHash : Option String
  confirmedAt : Option Timestamp
  errorMessage : Option String
  report : Option EngineReport
deriving DecidableEq

/-- Reads what became of a transaction. -/
def committedTransaction? (j : Json) : Option CommittedDetails := do
  let ms ← Json.record?
    [.must "transaction_status", .may "intent_hash", .may "confirmed_at", .may "error_message",
     .may "receipt"] j
  let status ← Json.required? ms "transaction_status" Json.str?
  let intentHash ← Json.optional? ms "intent_hash" Json.str?
  let confirmedAt ← Json.optional? ms "confirmed_at" fun j => j.str?.bind Timestamp.ofText?
  let errorMessage ← Json.optional? ms "error_message" Json.str?
  let report ← Json.optional? ms "receipt" EngineReport.ofJson?
  pure ⟨status, intentHash, confirmedAt, errorMessage, report⟩

/-- Reads the details of a committed transaction. -/
def CommittedDetails.ofJson? (j : Json) : Option CommittedDetails := do
  let ms ← Json.record? [.must "transaction"] j
  Json.required? ms "transaction" committedTransaction?

/-! ## Older documents -/

/-- What a component owns of a resource. -/
structure OwnedResource where
  address : String
  amount : String
  ids : List String
deriving DecidableEq

/-- Reads what a component owns of a resource. -/
def OwnedResource.ofJson? (j : Json) : Option OwnedResource := do
  let ms ← Json.record? [.must "resource_address", .must "amount", .may "non_fungible_ids"] j
  let address ← Json.required? ms "resource_address" Json.str?
  let amount ← Json.required? ms "amount" Json.str?
  let ids ← Json.defaulted? ms "non_fungible_ids" (Json.listOf? Json.str?) []
  pure ⟨address, amount, ids⟩

/-- A component with its state as a text. -/
structure ComponentDocument where
  state : String
  owned : List OwnedResource
deriving DecidableEq

/-- Reads a component. -/
def ComponentDocument.ofJson? (j : Json) : Option ComponentDocument := do
  let ms ← Json.record? [.must "state", .may "owned_resources"] j
  let state ← Json.required? ms "state" Json.str?
  let owned ← Json.defaulted? ms "owned_resources" (Json.listOf? OwnedResource.ofJson?) []
  pure ⟨state, owned⟩

/-- A non-fungible with its two groups of data fields as texts. -/
structure NonFungibleDocument where
  immutableData : String
  mutableData : String
deriving DecidableEq

/-- Reads a non-fungible. -/
def NonFungibleDocument.ofJson? (j : Json) : Option NonFungibleDocument := do
  let ms ← Json.record? [.must "immutable_data", .must "mutable_data"] j
  let immutableData ← Json.required? ms "immutable_data" Json.str?
  let mutableData ← Json.required? ms "mutable_data" Json.str?
  pure ⟨immutableData, mutableData⟩

end LedgerClient
