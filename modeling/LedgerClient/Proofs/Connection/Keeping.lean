/-
  The stores of a site.

  * `Site.outside` answers the questions of the client by the errands of the site, on a machine
    and with a wallet that replies as given;
  * `ofText_text`: what is written to the file of the account is read back;
  * `keeps`: the account that is kept in memory or in a file is the one that was written last.
-/
import LedgerClient.DryRun.Machine
import LedgerClient.Proofs.Connection.Update
import LedgerClient.Proofs.Json.Strings
import LedgerClient.Site

namespace LedgerClient

open DryRun

/-! ## The file of the account -/

namespace AccountFile

theorem address?_record (address : String) :
    address? (.obj [("accountAddress", .str address)]) = some address := by
  simp [address?, Json.record?, Json.occurrences, Json.required?, Json.lookup?, Json.Field.must,
    Json.str?]

/-- **What was written for an account is read back.** -/
theorem ofText_text (account : AccountRef) : ofText (text account) = .ok (some account) := by
  rw [ofText, text, Json.read?_record, Option.bind_some, address?_record]
  exact congrArg Except.ok account.ofText?_address

end AccountFile

/-! ## Files -/

namespace DryRun.Machine

theorem find_put (path : String) (place : Place) (m : Machine) :
    (m.put path place).find path = place := by
  simp [find, put]

/-- Where a file can be read, it can be replaced. -/
theorem replaceFile_of_readFile {m : Machine} {path : String} {content : Option String}
    (h : m.readFile path = .ok content) (place : Place) :
    m.replaceFile path place = (.ok (), m.put path place) := by
  unfold readFile at h
  unfold replaceFile
  split at h <;> simp_all

end DryRun.Machine

/-! ## Stores -/

namespace Site

/-- Runs errands on a machine. -/
def errands {α : Type} (legwork : Legwork α) : StateM Machine α := fun m =>
  let (a, _, m) := Machine.outside.run legwork .fresh m
  (a, m)

/-- The answers of a site, where the wallet replies this when it is asked for its accounts. -/
def outside (site : Site) (reply : Except Fault (List WalletAccount)) :
    (q : Question) → StateM Machine q.Answer
  | .accounts => pure reply
  | q => errands (site.answer q)

/-- The account that the store of a site would load. -/
def kept (site : Site) (m : Machine) : Except Fault (Option AccountRef) :=
  (errands site.keeping.load m).1

theorem errands_ask {α : Type} (e : Errand) (next : e.Answer → Legwork α) (m : Machine) :
    errands (.ask e next) m =
      errands (next (Machine.outside.answer e m).1) (Machine.outside.answer e m).2 := rfl

theorem errands_load_inFile (path : String) (m : Machine) :
    errands (Keeping.load (.inFile path)) m =
      ((m.readFile path).bind AccountFile.ofContent, m) := by
  have hread : Machine.outside.answer (.readFile path) m = (m.readFile path, m) := rfl
  show errands (.ask (.readFile path) _) m = _
  rw [errands_ask, hread]
  cases m.readFile path <;> rfl

variable {reply : Except Fault (List WalletAccount)}

section File

variable {gatewayUrl walletUrl path : String} {m : Machine} {account : Option AccountRef}

theorem holds_inFile_iff :
    Connection.Holds (outside ⟨gatewayUrl, walletUrl, .inFile path⟩ reply) m account ↔
      (m.readFile path).bind AccountFile.ofContent = .ok account := by
  show (errands (Keeping.load (.inFile path)) m).1 = _ ↔ _
  rw [errands_load_inFile]

/-- Where an account can be loaded from a file, the file can be replaced. -/
theorem replaceFile_of_holds
    (h : Connection.Holds (outside ⟨gatewayUrl, walletUrl, .inFile path⟩ reply) m account)
    (place : Place) : m.replaceFile path place = (.ok (), m.put path place) := by
  rw [holds_inFile_iff] at h
  cases hread : m.readFile path with
  | ok content => exact Machine.replaceFile_of_readFile hread place
  | error fault => simp [hread, Except.bind] at h

theorem outside_save (next : AccountRef) :
    outside ⟨gatewayUrl, walletUrl, .inFile path⟩ reply (.save next) m =
      m.replaceFile path (.file (AccountFile.text next)) := rfl

theorem outside_clear :
    outside ⟨gatewayUrl, walletUrl, .inFile path⟩ reply .clear m =
      m.replaceFile path .vacant := rfl

theorem keeps_inFile :
    Connection.Keeps (outside ⟨gatewayUrl, walletUrl, .inFile path⟩ reply) where
  accounts := id
  load {m account} h := by
    show Connection.Holds _ (errands (Keeping.load (.inFile path)) m).2 account
    rw [errands_load_inFile]
    exact h
  save h next := by
    rw [outside_save, replaceFile_of_holds h]
    refine ⟨rfl, holds_inFile_iff.2 ?_⟩
    simp only [Machine.readFile, Machine.find_put, Except.bind, AccountFile.ofContent]
    exact AccountFile.ofText_text next
  clear h := by
    rw [outside_clear, replaceFile_of_holds h]
    refine ⟨rfl, holds_inFile_iff.2 ?_⟩
    rw [Machine.readFile, Machine.find_put]
    rfl

end File

variable {site : Site}

/-- **The account that was written last is kept**, whatever the wallet replies. -/
theorem keeps (h : site.keeping ≠ .nowhere) (reply : Except Fault (List WalletAccount)) :
    Connection.Keeps (site.outside reply) := by
  obtain ⟨gatewayUrl, walletUrl, keeping⟩ := site
  cases keeping with
  | nowhere => exact absurd rfl h
  | inMemory => exact ⟨id, id, fun _ _ => ⟨rfl, rfl⟩, fun _ => ⟨rfl, rfl⟩⟩
  | inFile path => exact keeps_inFile

end Site

end LedgerClient
