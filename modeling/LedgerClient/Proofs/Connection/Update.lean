/-
  Taking over the accounts of the wallet.

  * `IsFirst` says which account of the wallet is meant;
  * `Keeps` describes a store that works and that nobody else writes, and `Holds` what is in it;
  * `update_eq` puts an update into its two steps: the account on the desk is replaced, and then
    written to the store where it is another one than before;
  * `update_ending`, `resolve_ending` and `restore_ending` say what is on the desk and in such a
    store afterwards.
-/
import LedgerClient.Connection
import LedgerClient.Proofs.Job.Record

namespace LedgerClient

open Job Text

/-! ## The first account -/

namespace AccountRef

theorem ofText?_eq_none_iff {text : String} : ofText? text = none ↔ trim text = "" := by
  simp [ofText?]

theorem ofText?_eq_some_iff {text : String} {account : AccountRef} :
    ofText? text = some account ↔ trim text = account.address := by
  obtain ⟨address, htrim, hne⟩ := account
  unfold ofText?
  split
  · rename_i hblank
    simp [hblank, Ne.symm hne]
  · simp

end AccountRef

namespace Connection

/-- The account that is meant by the accounts of the wallet: the first one with an address that
    is not blank, without its blank ends, or none where all are blank. -/
def IsFirst (accounts : List WalletAccount) : Option AccountRef → Prop
  | none => ∀ a ∈ accounts, trim a.address = ""
  | some account => ∃ before a after, accounts = before ++ a :: after ∧
      (∀ b ∈ before, trim b.address = "") ∧ trim a.address = account.address

theorem isFirst_iff {accounts : List WalletAccount} {next : Option AccountRef} :
    IsFirst accounts next ↔ first? accounts = next := by
  cases next with
  | none =>
    rw [first?, List.findSome?_eq_none_iff, IsFirst]
    simp only [AccountRef.ofText?_eq_none_iff]
  | some account =>
    rw [first?, List.findSome?_eq_some_iff, IsFirst]
    simp only [AccountRef.ofText?_eq_none_iff, AccountRef.ofText?_eq_some_iff]
    simp only [and_comm]

/-! ## Stores -/

variable {ω : Type}

/-- The store would load this account. -/
def Holds (answer : (q : Question) → StateM ω q.Answer) (w : ω) (account : Option AccountRef) :
    Prop :=
  (answer .load w).1 = .ok account

/-- This account is on the desk, and the store would load it. -/
structure Agrees (answer : (q : Question) → StateM ω q.Answer) (account : Option AccountRef)
    (d : Desk) (w : ω) : Prop where
  desk : d.account = account
  store : Holds answer w account

/-- A store that does not fail, and that holds what was written to it last. -/
structure Keeps (answer : (q : Question) → StateM ω q.Answer) : Prop where
  accounts {w : ω} {account : Option AccountRef} (h : Holds answer w account) :
    Holds answer (answer .accounts w).2 account
  load {w : ω} {account : Option AccountRef} (h : Holds answer w account) :
    Holds answer (answer .load w).2 account
  save {w : ω} {account : Option AccountRef} (h : Holds answer w account) (next : AccountRef) :
    (answer (.save next) w).1 = .ok () ∧ Holds answer (answer (.save next) w).2 (some next)
  clear {w : ω} {account : Option AccountRef} (h : Holds answer w account) :
    (answer .clear w).1 = .ok () ∧ Holds answer (answer .clear w).2 none

/-! ## The steps of an update -/

/-- What is left of an update when the account has been replaced, and is to be written. -/
def writing (next : Option AccountRef) : Work (Except Fault (Option AccountRef)) :=
  (write next).run.bind (proceed fun _ => .done (.ok next))

theorem update_eq (accounts : List WalletAccount) :
    (update true accounts).run = .act (Desk.setAccount (first? accounts)) fun before =>
      if before.account = first? accounts then .done (.ok (first? accounts))
      else writing (first? accounts) := by
  rw [update, run_bind_eq]
  show Job.act _ _ = _
  congr 1
  funext before
  show ExceptT.run (if true = true ∧ before.account ≠ first? accounts then write (first? accounts) >>=
    fun _ => pure (first? accounts) else pure (first? accounts)) = _
  by_cases h : before.account = first? accounts
  · rw [if_neg fun hdue => hdue.2 h, if_pos h]
    rfl
  · rw [if_pos ⟨rfl, h⟩, if_neg h, run_bind_eq]
    rfl

theorem resolve_eq :
    (resolve true).run = .ask .accounts (proceed fun accounts =>
      (update true accounts).run.bind (proceed fun next =>
        .done (next.elim (.error .notConnected) .ok))) := by
  rw [resolve, run_bind_eq]
  show Job.ask _ _ = _
  congr 1
  funext reply
  cases reply with
  | error fault => rfl
  | ok accounts =>
    show (update true accounts >>= _).run = _
    rw [run_bind_eq]
    congr 2
    funext next
    cases next <;> rfl

theorem restore_eq :
    (restore true).run = .ask .load (proceed fun account =>
      if account.isSome then .act (Desk.setAccount account) fun _ => .done (.ok account)
      else .done (.ok account)) := by
  show ((Ask.load >>= _).run : Work _) = _
  rw [run_bind_eq]
  rfl

/-! ## Where they lead -/

section Alone

variable {answer : (q : Question) → StateM ω q.Answer} (hkeeps : Keeps answer) {d : Desk} {w : ω}

include hkeeps

/-- Writing is a single question, after which the store holds what was written. -/
theorem writing_asks {account : Option AccountRef} (hw : Holds answer w account)
    (next : Option AccountRef) :
    ∃ (q : Question) (more : q.Answer → Work (Except Fault (Option AccountRef))),
      writing next = .ask q more ∧ more (answer q w).1 = .done (.ok next) ∧
        Holds answer (answer q w).2 next := by
  cases next with
  | none =>
    obtain ⟨hok, hholds⟩ := hkeeps.clear hw
    exact ⟨.clear, _, rfl, congrArg _ hok, hholds⟩
  | some next =>
    obtain ⟨hok, hholds⟩ := hkeeps.save hw next
    exact ⟨.save next, _, rfl, congrArg _ hok, hholds⟩

/-- An update brings the desk and the store to the first account. -/
theorem update_ending {account : Option AccountRef} (h : Agrees answer account d w)
    (accounts : List WalletAccount) :
    let e := (update true accounts).run.ending answer d w
    e.result = .ok (first? accounts) ∧ Agrees answer (first? accounts) e.state e.world := by
  obtain ⟨rfl, hholds⟩ := h
  rw [update_eq, ending_act]
  split
  · rename_i hsame
    rw [hsame] at hholds
    exact ⟨rfl, rfl, hholds⟩
  · obtain ⟨q, more, heq, hmore, hholds'⟩ := writing_asks hkeeps hholds (first? accounts)
    rw [heq, ending_ask, hmore]
    exact ⟨rfl, rfl, hholds'⟩

/-- Resolving is an update to the accounts that the wallet reports, if it does. -/
theorem resolve_ending {account : Option AccountRef} (h : Agrees answer account d w) :
    let e := (resolve true).run.ending answer d w
    Agrees answer ((answer .accounts w).1.toOption.elim account first?) e.state e.world := by
  have hasked : Agrees answer account d (answer .accounts w).2 :=
    ⟨h.desk, hkeeps.accounts h.store⟩
  rw [resolve_eq, ending_ask]
  cases (answer .accounts w).1 with
  | error fault => exact hasked
  | ok accounts =>
    obtain ⟨hresult, hagrees⟩ := update_ending hkeeps hasked accounts
    rw [proceed, ending_bind]
    dsimp only
    rw [hresult]
    exact hagrees

/-- The account in the store goes to a desk that has no other one. -/
theorem restore_ending {account : Option AccountRef} (hw : Holds answer w account)
    (hd : d.account = none ∨ d.account = account) :
    let e := (restore true).run.ending answer d w
    Agrees answer account e.state e.world := by
  have hloaded : Holds answer (answer .load w).2 account := hkeeps.load hw
  rw [restore_eq, ending_ask, hw]
  cases account with
  | none => exact ⟨or_self_iff.1 hd, hloaded⟩
  | some account => exact ⟨rfl, hloaded⟩

end Alone

end Connection

end LedgerClient
