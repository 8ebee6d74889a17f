/-
  Talking to the wallet over a relay.

  * `accounts` asks for the accounts that the wallet has shared, `sign` hands
    over a transaction;
  * a relay that cannot be reached, or does not give the accounts, is a wallet
    that is not available; a transaction without an intent hash was refused.
-/
import LedgerClient.Errand
import LedgerClient.Json.Reader
import LedgerClient.Wallet.Message
import LedgerClient.Wallet.Refusal

namespace LedgerClient.Wallet

open Text

/-- The fault behind a missing response. -/
def silence : Http.Failure → Fault
  | .unreachable => .walletUnavailable (.quoted "no response")
  | .unsendable => .networkFailure (.quoted "no address to send to")

/-- The fault of a response that cannot be read. -/
def unreadable : Fault :=
  .serialization (.quoted "the response has another form")

/-! ## Accounts -/

/-- Reads a list of accounts. -/
def accountsOfJson? (j : Json) : Option (List WalletAccount) := do
  let ms ← Json.record? [.may "accounts"] j
  Json.defaulted? ms "accounts" (Json.listOf? WalletAccount.ofJson?) []

/-- The accounts in a response. -/
def accountsIn (response : Http.Response) : Except Fault (List WalletAccount) :=
  if response.isSuccess then
    match (Json.read? response.body).bind accountsOfJson? with
    | some accounts => .ok accounts
    | none => .error unreadable
  else
    .error (.walletUnavailable
      (.own ("relay answered " ++ numeral response.status ++ " " ++
        Http.reasonPhrase response.status)))

/-- Asks for the accounts. -/
def accounts (base : String) : Legwork (Except Fault (List WalletAccount)) := do
  match ← Errand.fetch (Http.Request.make? .get (base ++ "/accounts") none) with
  | .error failure => pure (.error (silence failure))
  | .ok response => pure (accountsIn response)

/-! ## Transactions -/

/-- What the relay tells about a transaction. -/
structure Verdict where
  intentHash : Option String
  error : Option String
  message : Option String

/-- Reads a verdict. -/
def Verdict.ofJson? (j : Json) : Option Verdict := do
  let ms ← Json.record? [.may "transactionIntentHash", .may "error", .may "message"] j
  let intentHash ← Json.optional? ms "transactionIntentHash" Json.str?
  let error ← Json.optional? ms "error" Json.str?
  let message ← Json.optional? ms "message" Json.str?
  pure ⟨intentHash, error, message⟩

/-- The intent hash in a response, or why there is none. -/
def hashIn (response : Http.Response) : Except Fault String :=
  match (Json.read? response.body).bind Verdict.ofJson? with
  | none => .error unreadable
  | some verdict =>
    match verdict.intentHash, response.isSuccess with
    | some intentHash, true => .ok intentHash
    | _, _ => .error (refusal verdict.error (verdict.message.getD ""))

/-- Hands over a transaction. -/
def sign (base : String) (request : TransactionRequest) : Legwork (Except Fault String) := do
  let body := some request.toJson
  match ← Errand.fetch (Http.Request.make? .post (base ++ "/transactions") body) with
  | .error failure => pure (.error (silence failure))
  | .ok response => pure (hashIn response)

end LedgerClient.Wallet
