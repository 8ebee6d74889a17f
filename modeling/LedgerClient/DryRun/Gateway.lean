/-
  A gateway for dry runs: it answers from documents given beforehand.

  * entities, components and non-fungibles are looked up by their address;
    addresses marked as failing answer with a network failure;
  * the statuses of transactions come from a list, the last of which is
    repeated.
-/
import LedgerClient.Fault
import LedgerClient.Gateway.Answer
import LedgerClient.Gateway.Entity

namespace LedgerClient.DryRun

/-- A gateway with given documents. -/
structure Gateway where
  /-- Descriptions of entities by address; later ones count. -/
  entities : List (String × Json)
  components : List (String × Json)
  /-- Non-fungibles by the address of the resource followed by the local id. -/
  nonFungibles : List (String × Json)
  failing : List String
  statuses : List String
  committed : Option Json
  /-- The number of questions about entities so far. -/
  entityCalls : Nat

namespace Gateway

/-- A gateway without documents. -/
def empty : Gateway :=
  ⟨[], [], [], [], [], none, 0⟩

/-! ## Documents -/

/-- The description of an entity with its address filled in. -/
def addressed (address : String) : Json → Json
  | .obj members => (Json.obj (members ++ [("address", .str address)])).settle
  | j => j

/-- Gives the description of an entity. -/
def setEntity (g : Gateway) (address : String) (item : Json) : Gateway :=
  { g with entities := (address, addressed address item) :: g.entities }

/-- Gives the document of a component. -/
def setComponent (g : Gateway) (address : String) (body : Json) : Gateway :=
  { g with components := (address, body) :: g.components }

/-- Gives the document of a non-fungible. -/
def setNonFungible (g : Gateway) (resource id : String) (body : Json) : Gateway :=
  { g with nonFungibles := (resource ++ id, body) :: g.nonFungibles }

/-! ## Answers -/

/-- Refuses questions about a failing address. -/
def check (g : Gateway) (address : String) : Except Fault Unit :=
  if g.failing.contains address then
    .error (.networkFailure (.own ("mock failure for " ++ address)))
  else .ok ()

/-- Reads a document. -/
def decode {α : Type} (what : String) (read : Json → Option α) (body : Json) : Except Fault α :=
  match read body with
  | some a => .ok a
  | none => .error (.schemaMismatch what "gateway response" (.quoted "another document"))

/-- Looks a document up and reads it. -/
def document {α : Type} (documents : List (String × Json)) (place key : String)
    (read : Json → Option α) : Except Fault α :=
  match documents.lookup key with
  | some body => decode key read body
  | none => .error (.networkFailure (.own ("404 /" ++ place ++ "/" ++ key)))

/-- The descriptions of entities; those that are not there are left out. -/
def describe (g : Gateway) : List String → Except Fault (List Entity)
  | [] => .ok []
  | address :: rest => do
    g.check address
    let here ← match g.entities.lookup address with
      | some body => (decode address Entity.ofJson? body).map fun item => [item]
      | none => .ok []
    pure (here ++ (← g.describe rest))

/-- A component. -/
def component (g : Gateway) (address : String) : Except Fault ComponentDocument := do
  g.check address
  document g.components "component" address ComponentDocument.ofJson?

/-- A non-fungible. -/
def nonFungible (g : Gateway) (resource id : String) : Except Fault NonFungibleDocument := do
  g.check resource
  document g.nonFungibles "non-fungible" (resource ++ id) NonFungibleDocument.ofJson?

/-- The status of a transaction, and the statuses to come. -/
def nextStatus : List String → String × List String
  | [] => ("CommittedSuccess", [])
  | [status] => (status, [status])
  | status :: rest => (status, rest)

/-- Answers a poll. -/
def status (g : Gateway) (intentHash : String) : Except Fault TransactionStatus × Gateway :=
  match g.check intentHash with
  | .error fault => (.error fault, g)
  | .ok () =>
    let (status, rest) := nextStatus g.statuses
    (.ok ⟨status, none, none⟩, { g with statuses := rest })

/-- What is told about every committed transaction, unless something was given. -/
def plainDetails : Json :=
  .obj [("transaction", .obj [("transaction_status", .str "CommittedSuccess")])]

/-- The details of a committed transaction. -/
def details (g : Gateway) (intentHash : String) : Except Fault CommittedDetails := do
  g.check intentHash
  decode intentHash CommittedDetails.ofJson? (g.committed.getD plainDetails)

end Gateway

end LedgerClient.DryRun
