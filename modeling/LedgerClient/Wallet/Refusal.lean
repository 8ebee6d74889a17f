/-
  Refusals: why a wallet or the engine did not carry out a transaction.

  * `reason?` finds the readable reason in an error text of the engine;
  * `refusal` is the fault behind the error code and the message of a wallet.
-/
import LedgerClient.Fault
import LedgerClient.Text.Search

namespace LedgerClient.Wallet

open Text

/-! ## Reasons -/

/-- What a panic says: the text from the first `PanicMessage("` to the next `@`,
    where the place in the program follows. -/
def panicReason? (raw : List Char) : Option (List Char) := do
  let rest ← after? "PanicMessage(\"".toList raw
  let (reason, _) ← cutAt? '@' rest
  pure reason

/-- What went wrong with a resource: the text from the first `ResourceError(` to
    the next closing bracket, or to the end. -/
def resourceReason? (raw : List Char) : Option (List Char) :=
  (after? "ResourceError(".toList raw).map fun rest => rest.takeWhile (· != ')')

/-- The reason in an error text, unless it is empty. A panic goes before
    everything else. -/
def reason? (raw : String) : Option String :=
  match panicReason? raw.toList <|> resourceReason? raw.toList with
  | none | some [] => none
  | some reason => some (String.ofList reason)

/-- The reason in an error text, or else the text itself. -/
def reasonOrSelf (raw : String) : String :=
  (reason? raw).getD raw

/-! ## Wallets -/

/-- Whether the user declined. -/
def isDeclined (code message : String) : Bool :=
  lowerAscii code == "rejectedbyuser" || lowerAscii code == "userrejected" ||
    contains "rejectedByUser" message

/-- Whether there is no wallet to talk to. -/
def isUnavailable (code : String) : Bool :=
  ["walletnotfound", "notconnected", "missingextension"].any fun word =>
    contains word (lowerAscii code)

/-- The fault behind an error code and a message. -/
def refusal (code : Option String) (message : String) : Fault :=
  let code := code.getD ""
  let text := if message = "" then code else message
  if isDeclined code message then .userRejected
  else if isUnavailable code then .walletUnavailable (.own text)
  else .ledgerRejection ((reason? message).getD text)

end LedgerClient.Wallet
