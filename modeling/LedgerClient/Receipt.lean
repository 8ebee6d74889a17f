/-
  Receipts: what became of a submitted transaction.

  * `ReceiptStatus` is the verdict, read from the gateway's words by
    `ReceiptStatus.ofGateway`;
  * `Receipt` holds the verdict, the events, and the entities that are new;
  * `Receipt.ofJson?` and `Receipt.toJson` are its JSON form.
-/
import LedgerClient.Json.Record
import LedgerClient.Timestamp.Reader

namespace LedgerClient

/-- The verdict on a transaction. -/
inductive ReceiptStatus where
  | success
  | failure
  | rejected
  | pending
  | unknown
deriving DecidableEq, Repr

namespace ReceiptStatus

/-- The name of a verdict. -/
def name : ReceiptStatus → String
  | success => "Success"
  | failure => "Failure"
  | rejected => "Rejected"
  | pending => "Pending"
  | unknown => "Unknown"

/-- All verdicts with their names. -/
def named : List (String × ReceiptStatus) :=
  [success, failure, rejected, pending, unknown].map fun s => (s.name, s)

/-- The verdict behind a gateway's word, present or past. -/
def ofGateway : String → ReceiptStatus
  | "CommittedSuccess" | "Success" => success
  | "CommittedFailure" | "Failure" | "Failed" => failure
  | "Rejected" | "PermanentlyRejected" | "PermanentRejection" => rejected
  | "Pending" | "CommitPendingOutcomeUnknown" | "LikelyButNotCertainRejection" => pending
  | _ => unknown

def isSuccess : ReceiptStatus → Bool
  | success => true
  | _ => false

/-- Whether the verdict is the last word. -/
def isFinal : ReceiptStatus → Bool
  | pending | unknown => false
  | _ => true

end ReceiptStatus

/-- The receipt of a transaction. -/
structure Receipt where
  intentHash : String
  status : ReceiptStatus
  logs : List String
  newComponents : List String
  newResources : List String
  errorMessage : Option String
  confirmedAt : Option Timestamp
deriving DecidableEq

namespace Receipt

/-- A receipt of which only the verdict is known. -/
def bare (intentHash : String) (status : ReceiptStatus) : Receipt :=
  ⟨intentHash, status, [], [], [], none, none⟩

/-! ## JSON -/

def fields : List Json.Field :=
  [.must "intent_hash", .must "status", .may "logs", .may "new_components",
   .may "new_resources", .must "error_message", .must "confirmed_at"]

/-- Reads a receipt. -/
def ofJson? (j : Json) : Option Receipt := do
  let ms ← Json.record? fields j
  let intentHash ← Json.required? ms "intent_hash" Json.str?
  let status ← Json.required? ms "status" (Json.oneOf? ReceiptStatus.named)
  let logs ← Json.defaulted? ms "logs" (Json.listOf? Json.str?) []
  let newComponents ← Json.defaulted? ms "new_components" (Json.listOf? Json.str?) []
  let newResources ← Json.defaulted? ms "new_resources" (Json.listOf? Json.str?) []
  let errorMessage ← Json.optional? ms "error_message" Json.str?
  let confirmedAt ← Json.optional? ms "confirmed_at" fun j => j.str?.bind Timestamp.ofText?
  pure ⟨intentHash, status, logs, newComponents, newResources, errorMessage, confirmedAt⟩

/-- Writes a receipt. -/
def toJson (r : Receipt) : Json :=
  .obj
    [("intent_hash", .str r.intentHash), ("status", .str r.status.name),
     ("logs", .strings r.logs), ("new_components", .strings r.newComponents),
     ("new_resources", .strings r.newResources), ("error_message", .ofOption r.errorMessage),
     ("confirmed_at", .ofOption (r.confirmedAt.map Timestamp.text))]

end Receipt

end LedgerClient
