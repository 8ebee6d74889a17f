/-
  Values that are written to JSON and read back.

  * `Codec` is a form of documents: how values are read and written, which members may be missing,
    and which values are read back; there is one for receipts, transaction requests, accounts,
    balances and holdings;
  * `Codec.NormalisesOnce`: what is read is written in a form that is read as the same value and
    written the same again; a null option and an empty list are read as missing ones are;
  * `codecs_normalise_once`: so it is with all five of them. Amounts and dates that are written
    stand for what the given ones stand for, in the zone of their own.
-/
import LedgerClient.Holding
import LedgerClient.Proofs.Amount.Canonical
import LedgerClient.Proofs.Json.Records
import LedgerClient.Proofs.Timestamp.Reading
import LedgerClient.Receipt
import LedgerClient.Wallet.Message

namespace LedgerClient

/-! ## Forms of documents -/

/-- A form of documents that values are read from and written to. -/
structure Codec (α : Type) where
  fields : List Json.Field
  read : Json → Option α
  write : α → Json
  /-- The values that are read back. -/
  valid : α → Prop
  /-- The members that may be missing or null. -/
  options : List String
  /-- The lists that may be missing. -/
  lists : List String

namespace Codec

variable {α : Type} (c : Codec α)

/-- What a document has under a name. -/
def given? (j : Json) (name : String) : Option Json :=
  (Json.record? c.fields j).bind (Json.lookup? name)

/-- Whether a member counts: an option that is null and a list that is empty do not. -/
def counts (name : String) : Json → Bool
  | .null => name ∉ c.options
  | .arr [] => name ∉ c.lists
  | _ => true

/-- A member, where it is there and counts. -/
def member? (ms : List (String × Json)) (name : String) : Option Json :=
  (Json.lookup? name ms).filter (c.counts name)

/-- Two documents are records whose members count the same. -/
def Agree (j j' : Json) : Prop :=
  ∃ ms ms', Json.record? c.fields j = some ms ∧ Json.record? c.fields j' = some ms' ∧
    ∀ name, c.member? ms name = c.member? ms' name

/-- Values are read back, and only the members that count are read. -/
structure Lawful : Prop where
  read_write : ∀ {a}, c.valid a → c.read (c.write a) = some a
  valid_of_read : ∀ {j a}, c.read j = some a → c.valid a
  read_congr : ∀ {j j'}, c.Agree j j' → c.read j = c.read j'

/-- Documents are normal once they were read and written. -/
structure NormalisesOnce : Prop where
  /-- What was read is read back from the document that is written of it. -/
  read_again : ∀ j a, c.read j = some a → c.read (c.write a) = some a
  /-- That document is written again as it stands. -/
  write_again : ∀ j a, c.read j = some a → (c.read (c.write a)).map c.write = some (c.write a)
  /-- Null options and empty lists are read as those that are missing. -/
  read_alike : ∀ j j', c.Agree j j' → c.read j = c.read j'
  /-- The values that are read are the valid ones. -/
  exists_read_iff : ∀ a, (∃ j, c.read j = some a) ↔ c.valid a

variable {c}

theorem Lawful.normalisesOnce (h : c.Lawful) : c.NormalisesOnce where
  read_again _ _ hread := h.read_write (h.valid_of_read hread)
  write_again _ _ hread := by rw [h.read_write (h.valid_of_read hread), Option.map_some]
  read_alike _ _ hagree := h.read_congr hagree
  exists_read_iff a := ⟨fun ⟨_, hread⟩ => h.valid_of_read hread, fun hvalid =>
    ⟨c.write a, h.read_write hvalid⟩⟩

variable {ms ms' : List (String × Json)} {name : String} {β : Type}

/-- Whoever takes a null option and an empty list for missing ones looks at the members that count
only. -/
theorem congr_of_member? {f : Option Json → β} (hnull : name ∈ c.options → f (some .null) = f none)
    (hempty : name ∈ c.lists → f (some (.arr [])) = f none)
    (h : c.member? ms name = c.member? ms' name) :
    f (Json.lookup? name ms) = f (Json.lookup? name ms') := by
  have hmember : ∀ ms, f (Json.lookup? name ms) = f (c.member? ms name) := by
    intro ms
    unfold member?
    cases Json.lookup? name ms with
    | none => rfl
    | some j =>
      cases j with
      | null => by_cases ho : name ∈ c.options <;> simp [counts, Option.filter_some, ho, hnull]
      | arr items =>
        cases items with
        | nil => by_cases hl : name ∈ c.lists <;> simp [counts, Option.filter_some, hl, hempty]
        | cons => rfl
      | _ => rfl
  rw [hmember, hmember, h]

theorem required?_congr (hoption : name ∉ c.options) (hlist : name ∉ c.lists)
    (h : c.member? ms name = c.member? ms' name) (read : Json → Option β) :
    Json.required? ms name read = Json.required? ms' name read :=
  congr_of_member? (f := fun member => member.bind read) (fun ho => absurd ho hoption)
    (fun hl => absurd hl hlist) h

theorem optional?_congr (hlist : name ∉ c.lists) (h : c.member? ms name = c.member? ms' name)
    (read : Json → Option β) : Json.optional? ms name read = Json.optional? ms' name read := by
  rw [Json.optional?_eq, Json.optional?_eq]
  exact congr_of_member? (f := fun member => (member.filter fun j => !j.isNull).elim (some none) _)
    (fun _ => rfl) (fun hl => absurd hl hlist) h

theorem defaulted?_congr (hoption : name ∉ c.options)
    (h : c.member? ms name = c.member? ms' name) (read : Json → Option β) :
    Json.defaulted? ms name (Json.listOf? read) [] =
      Json.defaulted? ms' name (Json.listOf? read) [] := by
  rw [Json.defaulted?_eq, Json.defaulted?_eq]
  exact congr_of_member? (f := fun member => member.elim (some []) (Json.listOf? read))
    (fun ho => absurd ho hoption) (fun _ => rfl) h

end Codec

/-! ## Receipts -/

theorem ReceiptStatus.oneOf?_name (status : ReceiptStatus) :
    Json.oneOf? ReceiptStatus.named (.str status.name) = some status := by
  cases status <;> decide

namespace Receipt

def codec : Codec Receipt where
  fields := fields
  read := ofJson?
  write := toJson
  valid r := ∀ t, r.confirmedAt = some t → t.isValid
  options := ["error_message", "confirmed_at"]
  lists := ["logs", "new_components", "new_resources"]

/-- The date of a receipt is read from the text that the document has for it. -/
theorem exists_confirmedAt {j : Json} {r : Receipt} {t : Timestamp} (h : ofJson? j = some r)
    (ht : r.confirmedAt = some t) :
    ∃ s, codec.given? j "confirmed_at" = some (.str s) ∧ Timestamp.ofText? s = some t := by
  simp only [ofJson?, Option.bind_eq_bind, Option.bind_eq_some_iff] at h
  obtain ⟨ms, hrecord, _, -, _, -, _, -, _, -, _, -, _, -, date, hdate, he⟩ := h
  obtain rfl := Option.some.inj he
  obtain rfl : date = some t := ht
  obtain ⟨member, hlookup, hread⟩ := Json.exists_of_optional? hdate
  obtain ⟨s, hs, htext⟩ := Option.bind_eq_some_iff.1 hread
  obtain rfl := Json.str?_eq_some_iff.1 hs
  exact ⟨s, Option.bind_eq_some_iff.2 ⟨ms, hrecord, hlookup⟩, htext⟩

theorem codec_lawful : codec.Lawful where
  read_write {r} h := by
    obtain ⟨ms, hrecord, hms⟩ : ∃ ms, Json.record? fields r.toJson = some ms ∧
        ∀ name, Json.lookup? name ms = r.toJson.member? name := ⟨_, rfl, fun _ => rfl⟩
    have hdate := Json.optional?_ofOption (hms "confirmed_at") fun t ht =>
      Timestamp.ofText?_text (h t ht)
    simp only [codec, ofJson?, hrecord, Option.bind_eq_bind, Option.bind_some,
      Json.required?_of_lookup? (hms "intent_hash"), Json.required?_of_lookup? (hms "status"),
      Json.defaulted?_of_lookup? (hms "logs"), Json.defaulted?_of_lookup? (hms "new_components"),
      Json.defaulted?_of_lookup? (hms "new_resources"),
      Json.optional?_of_lookup? (.inr (hms "error_message")), hdate,
      ReceiptStatus.oneOf?_name, Json.listOf?_strings]
    rfl
  valid_of_read h t ht := by
    obtain ⟨s, -, htext⟩ := exists_confirmedAt h ht
    exact Timestamp.isValid_of_ofText? htext
  read_congr h := by
    obtain ⟨ms, ms', hms, hms', h⟩ := h
    simp only [codec] at hms hms'
    simp only [codec, ofJson?, hms, hms', Option.bind_eq_bind, Option.bind_some,
      Codec.required?_congr (c := codec) (by decide) (by decide) (h "intent_hash"),
      Codec.required?_congr (c := codec) (by decide) (by decide) (h "status"),
      Codec.defaulted?_congr (c := codec) (by decide) (h "logs"),
      Codec.defaulted?_congr (c := codec) (by decide) (h "new_components"),
      Codec.defaulted?_congr (c := codec) (by decide) (h "new_resources"),
      Codec.optional?_congr (c := codec) (by decide) (h "error_message"),
      Codec.optional?_congr (c := codec) (by decide) (h "confirmed_at")]

end Receipt

/-! ## Messages to and from the wallet -/

namespace TransactionRequest

def codec : Codec TransactionRequest where
  fields := [.must "transactionManifest", .must "version", .may "message"]
  read := ofJson?
  write := toJson
  valid r := r.version < twoTo 32
  options := ["message"]
  lists := []

theorem codec_lawful : codec.Lawful where
  read_write {r} h := by
    -- A message that is missing is left out, so that the members depend on it.
    obtain ⟨ms, hrecord, hmanifest, hversion, hmessage⟩ :
        ∃ ms, Json.record? codec.fields r.toJson = some ms ∧
          Json.lookup? "transactionManifest" ms = some (.str r.manifest) ∧
          Json.lookup? "version" ms = some (.nat r.version) ∧
          Json.lookup? "message" ms = r.message.map .str := by
      obtain ⟨manifest, version, message⟩ := r
      cases message with
      | none => exact ⟨_, rfl, rfl, rfl, rfl⟩
      | some message => exact ⟨_, rfl, rfl, rfl, rfl⟩
    simp only [codec] at hrecord
    simp only [codec, ofJson?, hrecord, Option.bind_eq_bind, Option.bind_some,
      Json.required?_of_lookup? hmanifest, Json.required?_of_lookup? hversion,
      Json.optional?_of_lookup? (.inl hmessage), Json.nat?_nat h]
    rfl
  valid_of_read h := by
    simp only [codec, ofJson?, Option.bind_eq_bind, Option.bind_eq_some_iff] at h
    obtain ⟨ms, -, _, -, version, hversion, _, -, he⟩ := h
    obtain rfl := Option.some.inj he
    obtain ⟨member, -, hread⟩ := Option.bind_eq_some_iff.1 hversion
    exact Json.lt_of_nat? hread
  read_congr h := by
    obtain ⟨ms, ms', hms, hms', h⟩ := h
    simp only [codec] at hms hms'
    simp only [codec, ofJson?, hms, hms', Option.bind_eq_bind, Option.bind_some,
      Codec.required?_congr (c := codec) (by decide) (by decide) (h "transactionManifest"),
      Codec.required?_congr (c := codec) (by decide) (by decide) (h "version"),
      Codec.optional?_congr (c := codec) (by decide) (h "message")]

end TransactionRequest

namespace WalletAccount

def codec : Codec WalletAccount where
  fields := [.must "address", .may "label"]
  read := ofJson?
  write := toJson
  valid _ := True
  options := ["label"]
  lists := []

theorem codec_lawful : codec.Lawful where
  read_write {a} _ := by
    obtain ⟨ms, hrecord, hms⟩ : ∃ ms, Json.record? codec.fields a.toJson = some ms ∧
        ∀ name, Json.lookup? name ms = a.toJson.member? name := ⟨_, rfl, fun _ => rfl⟩
    simp only [codec] at hrecord
    simp only [codec, ofJson?, hrecord, Option.bind_eq_bind, Option.bind_some,
      Json.required?_of_lookup? (hms "address"), Json.optional?_of_lookup? (.inr (hms "label"))]
    rfl
  valid_of_read _ := trivial
  read_congr h := by
    obtain ⟨ms, ms', hms, hms', h⟩ := h
    simp only [codec] at hms hms'
    simp only [codec, ofJson?, hms, hms', Option.bind_eq_bind, Option.bind_some,
      Codec.required?_congr (c := codec) (by decide) (by decide) (h "address"),
      Codec.optional?_congr (c := codec) (by decide) (h "label")]

end WalletAccount

/-! ## Holdings -/

theorem Amount.ofJson?_str {s : String} {a : Amount} :
    Amount.ofJson? (.str s) = some a ↔ Amount.parse s = .ok a := by
  rw [Amount.ofJson?, Json.str?, Option.bind_some]
  cases Amount.parse s <;> simp [Except.toOption]

theorem Amount.ofJson?_text (a : Amount) : Amount.ofJson? (.str a.text) = some a :=
  Amount.ofJson?_str.2 (Amount.parse_text a)

namespace ResourceBalance

def codec : Codec ResourceBalance where
  fields := [.must "resource_address", .must "amount"]
  read := ofJson?
  write := toJson
  valid _ := True
  options := []
  lists := []

theorem codec_lawful : codec.Lawful where
  read_write {b} _ := by
    obtain ⟨ms, hrecord, hms⟩ : ∃ ms, Json.record? codec.fields b.toJson = some ms ∧
        ∀ name, Json.lookup? name ms = b.toJson.member? name := ⟨_, rfl, fun _ => rfl⟩
    simp only [codec] at hrecord
    simp only [codec, ofJson?, hrecord, Option.bind_eq_bind, Option.bind_some,
      Json.required?_of_lookup? (hms "resource_address"),
      Json.required?_of_lookup? (hms "amount"), Amount.ofJson?_text]
    rfl
  valid_of_read _ := trivial
  read_congr h := by
    obtain ⟨ms, ms', hms, hms', h⟩ := h
    simp only [codec] at hms hms'
    simp only [codec, ofJson?, hms, hms', Option.bind_eq_bind, Option.bind_some,
      Codec.required?_congr (c := codec) (by decide) (by decide) (h "resource_address"),
      Codec.required?_congr (c := codec) (by decide) (by decide) (h "amount")]

/-- The amount of a balance is read from the text that the document has for it. -/
theorem exists_amount {j : Json} {b : ResourceBalance} (h : ofJson? j = some b) :
    ∃ s, codec.given? j "amount" = some (.str s) ∧ Amount.parse s = .ok b.amount := by
  simp only [ofJson?, Option.bind_eq_bind, Option.bind_eq_some_iff] at h
  obtain ⟨ms, hrecord, _, -, amount, hamount, he⟩ := h
  obtain rfl := Option.some.inj he
  obtain ⟨member, hlookup, hread⟩ := Option.bind_eq_some_iff.1 hamount
  obtain ⟨s, hs, -⟩ := Option.bind_eq_some_iff.1 hread
  obtain rfl := Json.str?_eq_some_iff.1 hs
  exact ⟨s, Option.bind_eq_some_iff.2 ⟨ms, hrecord, hlookup⟩, Amount.ofJson?_str.1 hread⟩

end ResourceBalance

namespace NonFungibleHolding

def codec : Codec NonFungibleHolding where
  fields := [.must "resource_address", .must "count", .may "ids"]
  read := ofJson?
  write := toJson
  valid h := h.count < twoTo 64
  options := []
  lists := ["ids"]

theorem codec_lawful : codec.Lawful where
  read_write {held} h := by
    obtain ⟨ms, hrecord, hms⟩ : ∃ ms, Json.record? codec.fields held.toJson = some ms ∧
        ∀ name, Json.lookup? name ms = held.toJson.member? name := ⟨_, rfl, fun _ => rfl⟩
    simp only [codec] at hrecord
    simp only [codec, ofJson?, hrecord, Option.bind_eq_bind, Option.bind_some,
      Json.required?_of_lookup? (hms "resource_address"), Json.required?_of_lookup? (hms "count"),
      Json.defaulted?_of_lookup? (hms "ids"), Json.nat?_nat h, Json.listOf?_strings]
    rfl
  valid_of_read h := by
    simp only [codec, ofJson?, Option.bind_eq_bind, Option.bind_eq_some_iff] at h
    obtain ⟨ms, -, _, -, count, hcount, _, -, he⟩ := h
    obtain rfl := Option.some.inj he
    obtain ⟨member, -, hread⟩ := Option.bind_eq_some_iff.1 hcount
    exact Json.lt_of_nat? hread
  read_congr h := by
    obtain ⟨ms, ms', hms, hms', h⟩ := h
    simp only [codec] at hms hms'
    simp only [codec, ofJson?, hms, hms', Option.bind_eq_bind, Option.bind_some,
      Codec.required?_congr (c := codec) (by decide) (by decide) (h "resource_address"),
      Codec.required?_congr (c := codec) (by decide) (by decide) (h "count"),
      Codec.defaulted?_congr (c := codec) (by decide) (h "ids")]

end NonFungibleHolding

/-! ## All forms -/

/-- **Documents are normal once they were read and written**, in all five forms. An amount and a
date that are written stand for what the given texts stand for: the same count of units, and the
same instant on a clock that shows UTC. -/
theorem codecs_normalise_once :
    (Receipt.codec.NormalisesOnce ∧ TransactionRequest.codec.NormalisesOnce ∧
      WalletAccount.codec.NormalisesOnce ∧ ResourceBalance.codec.NormalisesOnce ∧
      NonFungibleHolding.codec.NormalisesOnce) ∧
    (∀ j b, ResourceBalance.ofJson? j = some b → ∃ s,
      ResourceBalance.codec.given? j "amount" = some (.str s) ∧
      Amount.Denotes (Text.trimChars s.toList) b.amount.atto ∧
      ResourceBalance.codec.given? b.toJson "amount" = some (.str b.amount.text) ∧
      Amount.Denotes b.amount.text.toList b.amount.atto) ∧
    ∀ j r t, Receipt.ofJson? j = some r → r.confirmedAt = some t → ∃ s,
      Receipt.codec.given? j "confirmed_at" = some (.str s) ∧
      t.isValid ∧ (∀ u, u.isValid → (Timestamp.Tells s u ↔ u = t)) ∧
      Receipt.codec.given? r.toJson "confirmed_at" = some (.str t.text) ∧
      Timestamp.Shows t 0 t.text.toList := by
  refine ⟨⟨Receipt.codec_lawful.normalisesOnce, TransactionRequest.codec_lawful.normalisesOnce,
    WalletAccount.codec_lawful.normalisesOnce, ResourceBalance.codec_lawful.normalisesOnce,
    NonFungibleHolding.codec_lawful.normalisesOnce⟩, ?_, ?_⟩
  · intro j b hread
    obtain ⟨s, hgiven, hparse⟩ := ResourceBalance.exists_amount hread
    exact ⟨s, hgiven, Amount.parse_eq_ok_iff.1 hparse, rfl, Amount.denotes_text _⟩
  · intro j r t hread hdate
    obtain ⟨s, hgiven, htext⟩ := Receipt.exists_confirmedAt hread hdate
    have hvalid := Timestamp.isValid_of_ofText? htext
    refine ⟨s, hgiven, hvalid, fun u hu => Timestamp.tells_iff_of_ofText? htext hu, ?_, ?_⟩
    · show some (Json.ofOption (r.confirmedAt.map Timestamp.text)) = _
      rw [hdate]
      rfl
    · rw [Timestamp.text, String.toList_ofList]
      exact Timestamp.shows_chars hvalid

/-- A clock that is behind UTC and shows the last day of a year, with ten digits behind the
second and without the lists; and an amount with zeros at both ends, in a list of values. -/
theorem codecs_normalise_once_new_year :
    (∃ r, Receipt.ofJson? (.obj
        [("intent_hash", .str "txid_1"), ("status", .obj [("Rejected", .null)]),
         ("confirmed_at", .str "2023-12-31t23:15:07.1234567891 -01:30")]) = some r ∧
      r.confirmedAt = some ⟨⟨2024, 1, 1⟩, 0, 45, 7, 123456789⟩ ∧
      Timestamp.Tells "2023-12-31t23:15:07.1234567891 -01:30"
        ⟨⟨2024, 1, 1⟩, 0, 45, 7, 123456789⟩ ∧
      Receipt.ofJson? r.toJson = some r ∧
      (Receipt.ofJson? r.toJson).map Receipt.toJson = some r.toJson ∧
      Receipt.codec.given? r.toJson "confirmed_at" =
        some (.str (Timestamp.text ⟨⟨2024, 1, 1⟩, 0, 45, 7, 123456789⟩))) ∧
    ∃ b, ResourceBalance.ofJson? (.arr [.str "resource_xrd", .str " 0012.50"]) = some b ∧
      ResourceBalance.ofJson? b.toJson = some b ∧
      Amount.Denotes b.amount.text.toList (125 * tenTo 17) := by
  obtain ⟨⟨hreceipt, -, -, hbalance, -⟩, hamount, hdate⟩ := codecs_normalise_once
  constructor
  · have hread : Receipt.ofJson? (.obj
        [("intent_hash", .str "txid_1"), ("status", .obj [("Rejected", .null)]),
         ("confirmed_at", .str "2023-12-31t23:15:07.1234567891 -01:30")]) =
        some ⟨"txid_1", .rejected, [], [], [], none,
          some ⟨⟨2024, 1, 1⟩, 0, 45, 7, 123456789⟩⟩ := rfl
    obtain ⟨s, hgiven, hvalid, htells, hwritten, -⟩ := hdate _ _ _ hread rfl
    obtain rfl : "2023-12-31t23:15:07.1234567891 -01:30" = s := by
      injection Option.some.inj hgiven
    exact ⟨_, hread, rfl, (htells _ hvalid).2 rfl, hreceipt.read_again _ _ hread,
      hreceipt.write_again _ _ hread, hwritten⟩
  · have hread : ResourceBalance.ofJson? (.arr [.str "resource_xrd", .str " 0012.50"]) =
        some ⟨"resource_xrd", ⟨125 * tenTo 17, by decide⟩⟩ := rfl
    obtain ⟨_, -, -, -, hdenotes⟩ := hamount _ _ hread
    exact ⟨_, hread, hbalance.read_again _ _ hread, hdenotes⟩

end LedgerClient
