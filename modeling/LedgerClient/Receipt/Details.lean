/-
  The receipt of a committed transaction.

  * `Receipt.ofDetails` makes a receipt of what the gateway tells about a
    committed transaction: the new entities are told apart as resources and
    components, and an error text is reduced to its reason.
-/
import LedgerClient.Gateway.Answer
import LedgerClient.Receipt
import LedgerClient.Wallet.Refusal

namespace LedgerClient

open Text

/-- Whether a new entity is a resource, by its type or by its address. -/
def NewEntity.isResource (e : NewEntity) : Bool :=
  contains "Resource" e.kind || startsWith "resource_".toList e.address.toList

namespace Receipt

/-- The verdict in a gateway's words, where they are known, and else the one
    that was polled. -/
def verdict (polled : ReceiptStatus) (word : String) : ReceiptStatus :=
  match ReceiptStatus.ofGateway word with
  | .unknown => polled
  | status => status

/-- The receipt of a transaction with the given polled verdict. -/
def ofDetails (intentHash : String) (polled : ReceiptStatus) (d : CommittedDetails) : Receipt :=
  let entities := (d.report.bind (·.newEntities)).getD []
  let error := d.errorMessage <|> d.report.bind (·.errorMessage)
  { intentHash := d.intentHash.getD intentHash
    status := verdict polled d.status
    logs := (d.report.map (·.events)).getD []
    newComponents := (entities.filter fun e => !e.isResource).map (·.address)
    newResources := (entities.filter (·.isResource)).map (·.address)
    errorMessage := error.map Wallet.reasonOrSelf
    confirmedAt := d.confirmedAt }

end Receipt

end LedgerClient
