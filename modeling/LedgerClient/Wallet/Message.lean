/-
  Messages to and from the wallet.

  * `WalletAccount` is an account that the wallet has shared;
  * `TransactionRequest` is a manifest handed over for review and signing.
-/
import LedgerClient.Json.Record

namespace LedgerClient

/-- An account that the wallet has shared. -/
structure WalletAccount where
  address : String
  label : Option String
deriving DecidableEq

namespace WalletAccount

/-- Reads an account. -/
def ofJson? (j : Json) : Option WalletAccount := do
  let ms ← Json.record? [.must "address", .may "label"] j
  let address ← Json.required? ms "address" Json.str?
  let label ← Json.optional? ms "label" Json.str?
  pure ⟨address, label⟩

/-- Writes an account. -/
def toJson (a : WalletAccount) : Json :=
  .obj [("address", .str a.address), ("label", .ofOption a.label)]

end WalletAccount

/-- A manifest for review and signing. -/
structure TransactionRequest where
  manifest : String
  version : Nat
  message : Option String
deriving DecidableEq

namespace TransactionRequest

/-- The version of the manifest language in use. -/
def currentVersion : Nat := 1

/-- Reads a request. -/
def ofJson? (j : Json) : Option TransactionRequest := do
  let ms ← Json.record?
    [.must "transactionManifest", .must "version", .may "message"] j
  let manifest ← Json.required? ms "transactionManifest" Json.str?
  let version ← Json.required? ms "version" (Json.nat? (twoTo 32))
  let message ← Json.optional? ms "message" Json.str?
  pure ⟨manifest, version, message⟩

/-- Writes a request; a missing message is left out. -/
def toJson (r : TransactionRequest) : Json :=
  .obj ([("transactionManifest", .str r.manifest), ("version", .nat r.version)] ++
    match r.message with
    | some message => [("message", .str message)]
    | none => [])

end TransactionRequest

end LedgerClient
