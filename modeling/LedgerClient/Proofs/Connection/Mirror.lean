/-
  The store of a site and the account on the desk.

  * `Event` lists what changes the connected account, and `Event.perform` does it alone;
  * `Mirrors` is kept by every event: the store would load the account on the desk;
  * `store_mirrors_account`: so it is after any number of events from a start on, and the
    account is the one that was reported last, or the one that was in the store.
-/
import LedgerClient.Proofs.Connection.Keeping

namespace LedgerClient.Connection

open DryRun

/-! ## Events -/

/-- What changes the connected account. -/
inductive Event where
  /-- it is taken from the store -/
  | restore
  /-- the wallet is asked for its accounts, and replies this -/
  | resolve (reply : Except Fault (List WalletAccount))
  /-- the wallet reports its accounts unasked -/
  | changed (accounts : List WalletAccount)

namespace Event

/-- The accounts that the wallet reports. -/
def seen : Event → Option (List WalletAccount)
  | restore => none
  | resolve reply => reply.toOption
  | changed accounts => some accounts

/-- What the wallet says where it is asked for its accounts, which it is only to resolve. -/
def reply : Event → Except Fault (List WalletAccount)
  | resolve reply => reply
  | restore | changed _ => .ok []

/-- The desk and the machine after an attempt that is made alone. -/
def leave {α : Type} (answer : (q : Question) → StateM Machine q.Answer) (attempt : Attempt α)
    (s : Desk × Machine) : Desk × Machine :=
  let e := attempt.run.ending answer s.1 s.2
  (e.state, e.world)

/-- The desk and the machine after an event at a site with a store. -/
def perform (site : Site) (s : Desk × Machine) (e : Event) : Desk × Machine :=
  let answer := site.outside e.reply
  match e with
  | restore => leave answer (Connection.restore true) s
  | resolve _ => leave answer (Connection.resolve true) s
  | changed accounts => leave answer (Connection.update true accounts) s

/-- What is connected after a list of events, where `account` was before. -/
def latest (account : Option AccountRef) (events : List Event) : Option AccountRef :=
  (events.filterMap seen).getLast?.elim account first?

@[simp] theorem latest_nil (account : Option AccountRef) : latest account [] = account := rfl

theorem latest_cons (account : Option AccountRef) (e : Event) (events : List Event) :
    latest account (e :: events) = latest (e.seen.elim account first?) events := by
  unfold latest
  cases he : e.seen with
  | none => rw [List.filterMap_cons_none he, Option.elim_none]
  | some accounts =>
    rw [List.filterMap_cons_some he, List.getLast?_cons, Option.elim_some, Option.elim_some]
    cases (events.filterMap seen).getLast? <;> rfl

end Event

/-! ## What events keep -/

/-- This account is on the desk, and the store of the site would load it. -/
def Mirrors (site : Site) (account : Option AccountRef) (s : Desk × Machine) : Prop :=
  s.1.account = account ∧ site.kept s.2 = .ok account

variable {site : Site} {account : Option AccountRef}

theorem Agrees.mirrors {reply : Except Fault (List WalletAccount)} {d : Desk} {m : Machine}
    (h : Agrees (site.outside reply) account d m) : Mirrors site account (d, m) :=
  ⟨h.desk, h.store⟩

namespace Mirrors

variable (hsite : site.keeping ≠ .nowhere)

include hsite

theorem restore {d : Desk} {m : Machine} (hm : site.kept m = .ok account)
    (hd : d.account = none ∨ d.account = account) :
    Mirrors site account (Event.restore.perform site (d, m)) :=
  (restore_ending (Site.keeps hsite Event.restore.reply) hm hd).mirrors

/-- An event keeps the store and the desk together. -/
theorem perform {s : Desk × Machine} (hs : Mirrors site account s) (e : Event) :
    Mirrors site (e.seen.elim account first?) (e.perform site s) := by
  have hkeeps : Keeps (site.outside e.reply) := Site.keeps hsite e.reply
  have hagrees : Agrees (site.outside e.reply) account s.1 s.2 := ⟨hs.1, hs.2⟩
  cases e with
  | restore => exact restore hsite hs.2 (Or.inr hs.1)
  | resolve reply => exact (resolve_ending hkeeps hagrees).mirrors
  | changed accounts => exact (update_ending hkeeps hagrees accounts).2.mirrors

/-- Any number of events does. -/
theorem performAll {s : Desk × Machine} (hs : Mirrors site account s) (events : List Event) :
    Mirrors site (Event.latest account events) (events.foldl (Event.perform site) s) := by
  induction events generalizing account s with
  | nil => exact hs
  | cons e events ih =>
    rw [List.foldl_cons, Event.latest_cons]
    exact ih (hs.perform hsite e)

end Mirrors

/-- **The store mirrors the desk.** The client starts with the account that is in the store.
    After any events the store would load the account on the desk; this is the first one of
    the accounts that the wallet reported last, or the one from the start. -/
theorem store_mirrors_account (site : Site) (hsite : site.keeping ≠ .nowhere) (d : Desk)
    (hd : d.account = none) (m : Machine) (kept : Option AccountRef)
    (hkept : site.kept m = .ok kept) (events : List Event) :
    let s := (Event.restore :: events).foldl (Event.perform site) (d, m)
    site.kept s.2 = .ok s.1.account ∧
      match (events.filterMap Event.seen).getLast? with
      | some accounts => IsFirst accounts s.1.account
      | none => s.1.account = kept := by
  intro s
  have hstart : Mirrors site kept (Event.restore.perform site (d, m)) :=
    .restore hsite hkept (Or.inl hd)
  obtain ⟨hdesk, hstore⟩ : Mirrors site (Event.latest kept events) s :=
    hstart.performAll hsite events
  refine ⟨hstore.trans (congrArg _ hdesk.symm), ?_⟩
  rw [Event.latest] at hdesk
  cases hlast : (events.filterMap Event.seen).getLast? with
  | none =>
    rw [hlast] at hdesk
    exact hdesk
  | some accounts =>
    rw [hlast] at hdesk
    exact isFirst_iff.2 hdesk.symm

/-- Also where the file is not there at first, the first account is blank, the second one has
    blank ends, and the wallet cannot be reached afterwards. -/
theorem store_mirrors_account_blank_ends :
    let account : AccountRef := ⟨"account_rdx1qqqqqq", by decide, by decide⟩
    let site : Site := .make "https://gateway" "https://wallet" (.inFile "account.json")
    let m : Machine := ⟨0, ⟨"gateway", [], []⟩, [], none, 0, false⟩
    let events : List Event :=
      [.changed [⟨" ", none⟩, ⟨" account_rdx1qqqqqq ", none⟩], .resolve (.error .userRejected)]
    ∃ s, (Event.restore :: events).foldl (Event.perform site) (.fresh, m) = s ∧
      s.1.account = some account ∧ site.kept s.2 = .ok (some account) := by
  intro account site m events
  have hkept : site.kept m = .ok none := rfl
  have hlast : (events.filterMap Event.seen).getLast? =
      some [⟨" ", none⟩, ⟨" account_rdx1qqqqqq ", none⟩] := rfl
  have hfirst : IsFirst [⟨" ", none⟩, ⟨" account_rdx1qqqqqq ", none⟩] (some account) :=
    ⟨[⟨" ", none⟩], _, [], rfl, by decide, by decide⟩
  have hmirrors := store_mirrors_account site nofun .fresh rfl m none hkept events
  generalize (Event.restore :: events).foldl (Event.perform site) (.fresh, m) = s at hmirrors ⊢
  obtain ⟨hstore, hreported⟩ := hmirrors
  rw [hlast] at hreported
  have haccount : s.1.account = some account :=
    (isFirst_iff.1 hreported).symm.trans (isFirst_iff.1 hfirst)
  exact ⟨s, rfl, haccount, hstore.trans (congrArg _ haccount)⟩

end LedgerClient.Connection
