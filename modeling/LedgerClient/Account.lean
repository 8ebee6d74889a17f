/-
  Accounts: the address of the account that is connected in the wallet.

  * an `AccountRef` is not empty and has no blank ends; a blank address counts
    as "not connected", which is why `AccountRef.ofText?` is partial;
  * `AccountRef.ofText?_address` says that an account's address names it.
-/
import LedgerClient.Text.Blank

namespace LedgerClient

open Text

/-- The address of an account. -/
structure AccountRef where
  address : String
  trim_address : trim address = address
  address_ne : address ≠ ""
deriving DecidableEq

namespace AccountRef

/-- The account of an address as given, blank ends aside. -/
def ofText? (text : String) : Option AccountRef :=
  if h : trim text = "" then none else some ⟨trim text, trim_trim text, h⟩

theorem ofText?_address (a : AccountRef) : ofText? a.address = some a := by
  obtain ⟨address, ht, hn⟩ := a
  simp [ofText?, ht, hn]

end AccountRef

end LedgerClient
