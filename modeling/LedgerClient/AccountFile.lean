/-
  The file that keeps the connected account.

  * `AccountFile.text` is what is written, a JSON object with the address, and
    `AccountFile.ofText` reads it;
  * a missing file and a blank address both mean that no account is kept.
-/
import LedgerClient.Account
import LedgerClient.Fault
import LedgerClient.Json.Reader
import LedgerClient.Json.Record
import LedgerClient.Json.Writer

namespace LedgerClient.AccountFile

/-- What is written for an account. -/
def text (account : AccountRef) : String :=
  (Json.obj [("accountAddress", .str account.address)]).compact

/-- The address in a JSON document. -/
def address? (j : Json) : Option String := do
  let ms ← Json.record? [.must "accountAddress"] j
  Json.required? ms "accountAddress" Json.str?

/-- Reads what was written. -/
def ofText (content : String) : Except Fault (Option AccountRef) :=
  match (Json.read? content).bind address? with
  | some address => .ok (AccountRef.ofText? address)
  | none => .error (.serialization (.quoted "not an account file"))

/-- Reads the file, if there is one. -/
def ofContent : Option String → Except Fault (Option AccountRef)
  | some content => ofText content
  | none => .ok none

end LedgerClient.AccountFile
