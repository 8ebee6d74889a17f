/-
  Updates of which the store refuses the account.

  * `put` is what the store says when it is to hold an account, or none;
  * `update_of_same` and `update_of_changed`: an update asks the store only where the account is
    another one than before, and replaces the one on the desk whatever the store says;
  * `refused_account_stays`: an update fails exactly where the store refuses the account. The
    desk has the account all the same, so the next update to it takes it for written.
-/
import LedgerClient.Proofs.Connection.Keeping

namespace LedgerClient.Connection

open DryRun Job

variable {ω : Type}

/-- What the store says when it is to hold this account from now on, or none. -/
def put (answer : (q : Question) → StateM ω q.Answer) :
    Option AccountRef → StateM ω (Except Fault Unit)
  | some account => answer (.save account)
  | none => answer .clear

section Outcome

variable (answer : (q : Question) → StateM ω q.Answer) {d : Desk} (w : ω)

theorem writing_outcome (d : Desk) (next : Option AccountRef) :
    let e := (writing next).ending answer d w
    e.result = (put answer next w).1.map (fun _ => next) ∧ e.state = d ∧
      e.world = (put answer next w).2 := by
  cases next with
  | none =>
    have hask : writing none = .ask .clear (proceed fun _ => .done (.ok none)) := rfl
    rw [hask, ending_ask, put]
    cases (answer .clear w).1 <;> exact ⟨rfl, rfl, rfl⟩
  | some account =>
    have hask : writing (some account) =
      .ask (.save account) (proceed fun _ => .done (.ok (some account))) := rfl
    rw [hask, ending_ask, put]
    cases (answer (.save account) w).1 <;> exact ⟨rfl, rfl, rfl⟩

/-- An update to the account on the desk leaves everything as it is, and asks nothing. -/
theorem update_of_same {accounts : List WalletAccount} (h : d.account = first? accounts) :
    (update true accounts).run.ending answer d w = ⟨.ok (first? accounts), d, w, []⟩ := by
  rw [update_eq, ending_act, if_pos h, ending_done, ← h]
  rfl

/-- An update to another account replaces the one on the desk, whatever the store says. -/
theorem update_of_changed {accounts : List WalletAccount} (h : d.account ≠ first? accounts) :
    let e := (update true accounts).run.ending answer d w
    e.result = (put answer (first? accounts) w).1.map (fun _ => first? accounts) ∧
      e.state.account = first? accounts ∧ e.world = (put answer (first? accounts) w).2 := by
  rw [update_eq, ending_act, if_neg h]
  obtain ⟨hresult, hstate, hworld⟩ :=
    writing_outcome answer w (d.setAccount (first? accounts)) (first? accounts)
  exact ⟨hresult, congrArg Desk.account hstate, hworld⟩

end Outcome

/-- **An account that the store refuses stays on the desk.** An update fails exactly where the
    account is another one than before and the store refuses it. The desk has the account then,
    and an update to the same account succeeds from there on without asking the store: whatever
    is in it, also where it would take the account by then, it is left as it is. -/
theorem refused_account_stays (answer : (q : Question) → StateM ω q.Answer) (d : Desk) (w : ω)
    (accounts : List WalletAccount) :
    let e := (update true accounts).run.ending answer d w
    (∀ fault, e.result = .error fault ↔
      d.account ≠ first? accounts ∧ (put answer (first? accounts) w).1 = .error fault) ∧
    ∀ fault, e.result = .error fault →
      e.state.account = first? accounts ∧ e.state.account ≠ d.account ∧
      ∀ (answer' : (q : Question) → StateM ω q.Answer) (w' : ω) (again : List WalletAccount),
        first? again = first? accounts →
        (update true again).run.ending answer' e.state w' =
          ⟨.ok (first? accounts), e.state, w', []⟩ := by
  intro e
  by_cases hsame : d.account = first? accounts
  · have he : e = ⟨.ok (first? accounts), d, w, []⟩ := update_of_same answer w hsame
    rw [he]
    exact ⟨fun fault => ⟨nofun, fun h => absurd hsame h.1⟩, nofun⟩
  · obtain ⟨hresult, hdesk, -⟩ : e.result = _ ∧ e.state.account = _ ∧ _ :=
      update_of_changed answer w hsame
    constructor
    · intro fault
      rw [hresult]
      cases (put answer (first? accounts) w).1 <;> simp [Except.map, hsame]
    · intro fault _
      refine ⟨hdesk, hdesk ▸ Ne.symm hsame, fun answer' w' again hagain => ?_⟩
      rw [← hagain]
      exact update_of_same answer' w' (hdesk.trans hagain.symm)

/-- Also where a directory lies in the place of the file: after it is gone, the account that is
    connected is still not written. -/
theorem refused_account_stays_unwritten :
    let account : AccountRef := ⟨"account_rdx1qqqqqq", by decide, by decide⟩
    let accounts : List WalletAccount := [⟨" account_rdx1qqqqqq", none⟩]
    let site : Site := .make "https://gateway" "https://wallet" (.inFile "account.json")
    let m : Machine := ⟨0, ⟨"gateway", [], []⟩, [("account.json", .directory)], none, 0, false⟩
    let m' : Machine := { m with disk := [] }
    let e := (update true accounts).run.ending (site.outside (.ok [])) .fresh m
    let e' := (update true accounts).run.ending (site.outside (.ok [])) e.state m'
    e.result = .error Store.blocked ∧ e'.result = .ok (some account) ∧
      site.kept e'.world = .ok none := by
  intro account accounts site m m' e e'
  have hfirst : first? accounts = some account :=
    isFirst_iff.1 ⟨[], _, [], rfl, nofun, by decide⟩
  obtain ⟨hfails, hstays⟩ :=
    refused_account_stays (site.outside (.ok [])) .fresh m accounts
  have hfault : e.result = .error Store.blocked := by
    refine (hfails Store.blocked).2 ?_
    rw [hfirst]
    exact ⟨nofun, rfl⟩
  obtain ⟨-, -, hagain⟩ := hstays Store.blocked hfault
  have he' : e' = ⟨.ok (first? accounts), e.state, m', []⟩ :=
    hagain (site.outside (.ok [])) m' accounts rfl
  rw [he']
  refine ⟨hfault, congrArg _ hfirst, ?_⟩
  show (Site.errands (Keeping.load (.inFile "account.json")) m').1 = _
  rw [Site.errands_load_inFile]
  rfl

/-- So the account of an update that failed is connected, and is said to be connected by the next
    update, which asks the store for nothing while it holds none. -/
theorem refused_account_is_connected :
    let account : AccountRef := ⟨"account_rdx1qqqqqq", by decide, by decide⟩
    let accounts : List WalletAccount := [⟨"account_rdx1qqqqqq", none⟩]
    let site : Site := .make "https://gateway" "https://wallet" (.inFile "account.json")
    let m : Machine := ⟨0, ⟨"gateway", [], []⟩, [("account.json", .directory)], none, 0, false⟩
    let e := (update true accounts).run.ending (site.outside (.ok [])) .fresh m
    let e' := (update true accounts).run.ending (site.outside (.ok [])) e.state e.world
    e.result = .error Store.blocked ∧ e.state.account ≠ Desk.fresh.account ∧
      e'.result = .ok (some account) ∧ e'.asked = [] ∧ site.kept e'.world = .error Store.blocked := by
  intro account accounts site m
  have hfirst : first? accounts = some account :=
    isFirst_iff.1 ⟨[], _, [], rfl, nofun, by decide⟩
  have hchanged : Desk.fresh.account ≠ first? accounts := by
    rw [hfirst]
    nofun
  have hput : put (site.outside (.ok [])) (first? accounts) m = (.error Store.blocked, m) :=
    calc put (site.outside (.ok [])) (first? accounts) m
      _ = m.replaceFile "account.json" (.file (AccountFile.text account)) := by
        rw [hfirst]
        rfl
      _ = (.error Store.blocked, m) := rfl
  have hupdate := update_of_changed (site.outside (.ok [])) m hchanged
  rw [hput] at hupdate
  generalize (update true accounts).run.ending (site.outside (.ok [])) .fresh m = e at hupdate ⊢
  obtain ⟨hresult, hdesk, hworld⟩ := hupdate
  intro _ e'
  have he' : e' = ⟨.ok (first? accounts), e.state, e.world, []⟩ :=
    update_of_same (site.outside (.ok [])) e.world hdesk
  rw [he']
  refine ⟨hresult, ?_, congrArg _ hfirst, rfl, ?_⟩
  · exact hdesk ▸ hchanged.symm
  · show (Site.errands (Keeping.load (.inFile "account.json")) e.world).1 = _
    rw [hworld, Site.errands_load_inFile]
    rfl

end LedgerClient.Connection
