/-
  Talking to the gateway.

  * documents about entities and transactions are asked for by `POST`, older
    documents by `GET` at a path of their own;
  * `answer` tells what a response says: an error of the gateway is a network
    failure, and a body that cannot be read a mismatch with the schema;
  * every request is recorded in the metrics.
-/
import LedgerClient.Errand
import LedgerClient.Gateway.Answer
import LedgerClient.Gateway.Entity
import LedgerClient.Json.Reader

namespace LedgerClient.Gateway

open Text

/-! ## Responses -/

/-- The message in an error document of the gateway. -/
def errorMessage? (j : Json) : Option String := do
  let ms ← Json.record? [.must "message", .may "code"] j
  let message ← Json.required? ms "message" Json.str?
  let _ ← Json.optional? ms "code" fun code =>
    code.int?.filter fun i => -(twoTo 63 : Int) ≤ i ∧ i < twoTo 63
  pure message

/-- What an error response says: the message in it, or else all of it. -/
def complaint (body : String) : String :=
  ((Json.read? body).bind errorMessage?).getD body

/-- What a response says that was asked for at a path. -/
def answer {α : Type} (path : String) (read : Json → Option α) :
    Except Http.Failure Http.Response → Except Fault α
  | .error _ => .error (.networkFailure (.quoted "no response"))
  | .ok response =>
    if response.isSuccess then
      match (Json.read? response.body).bind read with
      | some a => .ok a
      | none => .error (.schemaMismatch path "gateway response" (.quoted "another document"))
    else
      .error (.networkFailure
        (.own (numeral response.status ++ " " ++ path ++ ": " ++ complaint response.body)))

/-- Sends a request and reads the response; both are recorded. -/
def exchange {α : Type} (path : String) (read : Json → Option α) (request : Option Http.Request) :
    Legwork (Except Fault α) := do
  let start ← Errand.run .now
  let result := answer path read (← Errand.fetch request)
  let stop ← Errand.run .now
  Job.modify <| Desk.record fun m =>
    m.gatewayCall result.isOk (Metrics.secondsBetween start stop)
  pure result

/-! ## Requests -/

/-- Asks by `POST`. -/
def post {α : Type} (base path : String) (body : Json) (read : Json → Option α) :
    Legwork (Except Fault α) :=
  exchange path read (Http.Request.make? .post (base ++ path) (some body))

/-- The URL with the given segments behind its path. -/
def place (base : String) (segments : List String) : Except Fault Http.Url :=
  match Http.Url.ofText? base with
  | none => .error (.config (.own ("invalid gateway url '" ++ base ++ "'")))
  | some url =>
    if url.hasSegments then .ok (url.extend segments)
    else .error (.config (.own ("gateway url '" ++ base ++ "' cannot carry a path")))

/-- Asks by `GET`. -/
def get {α : Type} (base : String) (segments : List String) (read : Json → Option α) :
    Legwork (Except Fault α) :=
  match place base segments with
  | .error fault => pure (.error fault)
  | .ok url =>
    exchange url.pathText read
      (if url.isOfWeb then some ⟨.get, url, none⟩ else none)

/-! ## Documents -/

/-- The entities of several addresses, vault by vault. -/
def entities (base : String) (addresses : List String) : Legwork (Except Fault (List Entity)) :=
  post base "/state/entity/details"
    (.obj [("addresses", .strings addresses), ("aggregation_level", .str "Vault")])
    (Json.page? Entity.ofJson?)

/-- A component in the older form. -/
def component (base address : String) : Legwork (Except Fault ComponentDocument) :=
  get base ["component", address] ComponentDocument.ofJson?

/-- A non-fungible in the older form. -/
def nonFungible (base resource id : String) : Legwork (Except Fault NonFungibleDocument) :=
  get base ["non-fungible", resource ++ id] NonFungibleDocument.ofJson?

/-- The status of a transaction. -/
def status (base intentHash : String) : Legwork (Except Fault TransactionStatus) :=
  post base "/transaction/status" (.obj [("intent_hash", .str intentHash)])
    TransactionStatus.ofJson?

/-- The details of a committed transaction. -/
def details (base intentHash : String) : Legwork (Except Fault CommittedDetails) :=
  post base "/transaction/committed-details"
    (.obj [("intent_hash", .str intentHash),
      ("opt_ins", .obj [("receipt_state_changes", .bool true), ("receipt_events", .bool true)])])
    CommittedDetails.ofJson?

end LedgerClient.Gateway
