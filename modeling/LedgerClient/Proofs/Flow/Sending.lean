/-
  What the wallet is handed.

  * `Connects` says when the answers to a run connect it with an account of the wallet, and
    `Cleared` when a manifest is built in its name;
  * `Hindered` says why there is none;
  * `run_sends_what_was_audited`: a run that is not refused hands the wallet the manifest that
    was built and audited, once, where there is one, and otherwise nothing.
-/
import LedgerClient.Proofs.Connection.Update
import LedgerClient.Proofs.Flow.Run
import LedgerClient.Proofs.Operation.Build

namespace LedgerClient

open Job

/-! ## Preparing -/

namespace Flow

variable {ω : Type} (f : Flow) (op : Operation) (answer : (q : Question) → StateM ω q.Answer)
  (before : Option AccountRef) (w : ω)

/-- What the store says when the connected account is written to it. -/
def storeSays (answer : (q : Question) → StateM ω q.Answer) (w : ω) :
    Option AccountRef → Except Fault Unit
  | some account => (answer (.save account) w).1
  | none => (answer .clear w).1

/-- The account that the wallet reports is `next`, and the store takes it in where there is one
    and the connected account is another one than before. -/
structure Connects (next : Option AccountRef) : Prop where
  reported : ∃ accounts, (answer .accounts w).1 = .ok accounts ∧ Connection.IsFirst accounts next
  written : f.stored = true → before ≠ next →
    storeSays answer (answer .accounts w).2 next = .ok ()

/-- The manifest of the operation is built in the name of the account that the wallet reports. -/
structure Cleared (account : AccountRef) (manifest : Manifest) : Prop where
  connects : Connects f answer before w (some account)
  built : op.build account f.addresses = .ok manifest

/-- What keeps a run from a manifest. -/
inductive Hindered (fault : Fault) : Prop
  /-- the wallet does not say which accounts there are -/
  | wallet (h : (answer .accounts w).1 = .error fault)
  /-- the store does not take in another account than before -/
  | store (accounts : List WalletAccount) (next : Option AccountRef)
      (reported : (answer .accounts w).1 = .ok accounts) (first : Connection.IsFirst accounts next)
      (stored : f.stored = true) (changed : before ≠ next)
      (h : storeSays answer (answer .accounts w).2 next = .error fault)
  /-- the wallet reports no account -/
  | account (connects : Connects f answer before w none) (h : fault = .notConnected)
  /-- the operation cannot be built -/
  | operation (account : AccountRef) (connects : Connects f answer before w (some account))
      (h : op.build account f.addresses = .error fault)

variable {f op answer before w}

theorem Connects.unique {next next' : Option AccountRef} (h : Connects f answer before w next)
    (h' : Connects f answer before w next') : next = next' := by
  obtain ⟨accounts, hreported, hfirst⟩ := h.reported
  obtain ⟨accounts', hreported', hfirst'⟩ := h'.reported
  obtain rfl : accounts = accounts' := Except.ok.inj (hreported.symm.trans hreported')
  rw [← Connection.isFirst_iff.1 hfirst, ← Connection.isFirst_iff.1 hfirst']

theorem Cleared.unique {account account' : AccountRef} {m m' : Manifest}
    (h : Cleared f op answer before w account m) (h' : Cleared f op answer before w account' m') :
    account = account' ∧ m = m' := by
  obtain rfl : account = account' := Option.some.inj (h.connects.unique h'.connects)
  exact ⟨rfl, Except.ok.inj (h.built.symm.trans h'.built)⟩

theorem Hindered.not_cleared {fault : Fault} (h : Hindered f op answer before w fault)
    (account : AccountRef) (manifest : Manifest) :
    ¬ Cleared f op answer before w account manifest := by
  intro hc
  obtain ⟨accounts', hreported', hfirst'⟩ := hc.connects.reported
  cases h with
  | wallet h =>
    rw [hreported'] at h
    cases h
  | store accounts next hreported hfirst hstored hchanged h =>
    obtain rfl : accounts = accounts' := Except.ok.inj (hreported.symm.trans hreported')
    obtain rfl : next = some account := by
      rw [← Connection.isFirst_iff.1 hfirst, ← Connection.isFirst_iff.1 hfirst']
    rw [hc.connects.written hstored hchanged] at h
    cases h
  | account hconnects _ => cases hconnects.unique hc.connects
  | operation account' hconnects h =>
    obtain rfl : account' = account := Option.some.inj (hconnects.unique hc.connects)
    rw [hc.built] at h
    cases h

variable {d : Desk}

theorem write_result (next : Option AccountRef) :
    ((Connection.write next).run.ending answer d w).result = storeSays answer w next := by
  cases next <;> rfl

theorem lift_result {α : Type} (r : Except Fault α) :
    ((liftM r : Attempt α).run.ending answer d w).result = r := by
  cases r <;> rfl

theorem update_yields {accounts : List WalletAccount}
    (hreported : (answer .accounts w).1 = .ok accounts) :
    Yields ((Connection.update f.stored accounts).run.ending answer d (answer .accounts w).2).result
      (Hindered f op answer d.account w) (Connects f answer d.account w) := by
  have hfirst : Connection.IsFirst accounts (Connection.first? accounts) :=
    Connection.isFirst_iff.2 rfl
  refine yields_run_bind (P := fun before => before.account = d.account) ?_ fun before hbefore => ?_
  · exact (rfl : d.account = d.account)
  dsimp only
  rw [hbefore]
  split
  · rename_i hdue
    obtain ⟨hstored, hchanged⟩ := hdue
    refine yields_run_bind (P := fun u => storeSays answer (answer .accounts w).2
      (Connection.first? accounts) = .ok u) ?_ fun _ hwritten => ?_
    · rw [write_result]
      exact .self fun fault => .store accounts _ hreported hfirst hstored hchanged
    · exact ⟨⟨accounts, hreported, hfirst⟩, fun _ _ => hwritten⟩
  · rename_i hdue
    exact ⟨⟨accounts, hreported, hfirst⟩, fun hstored hchanged => absurd ⟨hstored, hchanged⟩ hdue⟩

theorem resolve_yields :
    Yields ((Connection.resolve f.stored).run.ending answer d w).result
      (Hindered f op answer d.account w) fun account =>
        Connects f answer d.account w (some account) := by
  refine yields_run_bind (P := fun accounts => (answer .accounts w).1 = .ok accounts) ?_
    fun accounts hreported => ?_
  · exact Yields.self fun fault => .wallet
  · refine yields_run_bind (update_yields hreported) fun next hconnects => ?_
    cases next with
    | none => exact .account hconnects rfl
    | some account => exact hconnects

/-- A manifest is prepared where it is cleared, and a fault says what hinders it. -/
theorem prepare_yields :
    Yields ((f.prepare op).run.ending answer d w).result (Hindered f op answer d.account w)
      fun acted => Cleared f op answer d.account w acted.1 acted.2 := by
  refine yields_run_bind resolve_yields fun account hconnects => ?_
  refine yields_run_bind (P := fun manifest => op.build account f.addresses = .ok manifest) ?_
    fun manifest hbuilt => ?_
  · rw [lift_result]
    exact .self fun fault => .operation account hconnects
  · exact ⟨hconnects, hbuilt⟩

theorem prepare_cleared {account : AccountRef} {manifest : Manifest}
    (h : Cleared f op answer d.account w account manifest) :
    ((f.prepare op).run.ending answer d w).result = .ok (account, manifest) := by
  have hprepare : Yields ((f.prepare op).run.ending answer d w).result
      (Hindered f op answer d.account w) _ := prepare_yields
  cases hresult : ((f.prepare op).run.ending answer d w).result with
  | ok acted =>
    obtain ⟨rfl, rfl⟩ := (hprepare.result hresult).unique h
    rfl
  | error fault => exact absurd h ((hprepare.error hresult).not_cleared account manifest)

theorem prepare_hindered
    (h : ∀ account manifest, ¬ Cleared f op answer d.account w account manifest) :
    ∃ fault, ((f.prepare op).run.ending answer d w).result = .error fault ∧
      Hindered f op answer d.account w fault := by
  have hprepare : Yields ((f.prepare op).run.ending answer d w).result
      (Hindered f op answer d.account w) _ := prepare_yields
  cases hresult : ((f.prepare op).run.ending answer d w).result with
  | ok acted => exact absurd (hprepare.result hresult) (h acted.1 acted.2)
  | error fault => exact ⟨fault, rfl, hprepare.error hresult⟩

end Flow

/-! ## Handing over -/

/-- What came to pass handed the wallet these transactions, and counted each of them. -/
structure Hands {ω α : Type} (requests : List TransactionRequest) (d : Desk)
    (e : Ending Desk Question ω α) : Prop where
  sent : Question.requests e.asked = requests
  counted : e.state.submitted = d.submitted + requests.length

namespace Hands

variable {ω α β : Type} {answer : (q : Question) → StateM ω q.Answer} {d : Desk} {w : ω}

theorem of_silent {work : Work α} (h : work.Silent) : Hands [] d (work.ending answer d w) := by
  have hkept : (work.ending answer d w).state.submitted = d.submitted ∧
      ∀ q ∈ (work.ending answer d w).asked, q.request? = none := Within.ending h d w
  exact ⟨List.filterMap_eq_nil_iff.2 hkept.2, hkept.1⟩

/-- What is handed over first, and what is handed over after it. -/
theorem bind {work : Work α} {f : α → Work β} {requests requests' : List TransactionRequest}
    (hwork : Hands requests d (work.ending answer d w))
    (hf : Hands requests' (work.ending answer d w).state
      ((f (work.ending answer d w).result).ending answer (work.ending answer d w).state
        (work.ending answer d w).world)) :
    Hands (requests ++ requests') d ((work.bind f).ending answer d w) := by
  rw [ending_bind]
  constructor
  · show Question.requests (_ ++ _) = _
    rw [Question.requests, List.filterMap_append]
    exact congrArg₂ _ hwork.sent hf.sent
  · rw [List.length_append, ← Nat.add_assoc, ← hwork.counted]
    exact hf.counted

/-- Silent work hands over nothing more. -/
theorem then_silent {work : Work α} {f : α → Work β} {requests : List TransactionRequest}
    (hwork : Hands requests d (work.ending answer d w)) (hf : ∀ a, (f a).Silent) :
    Hands requests d ((work.bind f).ending answer d w) := by
  rw [← List.append_nil requests]
  exact hwork.bind (of_silent (hf _))

end Hands

namespace Flow

variable {ω : Type} {answer : (q : Question) → StateM ω q.Answer} {d : Desk} {w : ω}

/-- A submission hands its transaction to the wallet once. -/
theorem submit_hands (f : Flow) (manifest : Manifest) :
    Hands [Transaction.requestFor f.message manifest] d
      ((Transaction.submit f.submission f.message manifest).ending answer d w) := by
  rw [Transaction.submit_eq, ending_ask, ending_act, ending_ask, Ending.after_after]
  have hsettle : ∀ start reply d w,
      Hands [] d ((Transaction.settle f.submission start reply).ending answer d w) :=
    fun start reply _ _ => .of_silent (Transaction.settle_quiet f.submission start reply).silent
  exact ⟨congrArg (_ :: ·) (hsettle _ _ _ _).sent, (hsettle _ _ _ _).counted⟩

/-- The transactions that are handed to the wallet where preparing came to this. -/
def handed (f : Flow) : Except Fault (AccountRef × Manifest) → List TransactionRequest
  | .ok (_, manifest) => [Transaction.requestFor f.message manifest]
  | .error _ => []

theorem perform_hands (f : Flow) (op : Operation) :
    Hands (f.handed ((f.prepare op).run.ending answer d w).result) d
      ((f.perform op).ending answer d w) := by
  rw [perform_eq, ← List.nil_append (f.handed _)]
  refine (Hands.of_silent (f.prepare_quiet op).silent).bind ?_
  rcases ((f.prepare op).run.ending answer d w).result with fault | ⟨account, manifest⟩
  · exact ⟨rfl, rfl⟩
  · exact (f.submit_hands manifest).then_silent fun _ => trivial

/-- The desk on which the preparing of a run starts. -/
def begun (d : Desk) : Desk :=
  (d.setBusy true).setPhase .submitting

/-- What a run that is not refused comes to. -/
theorem run_ending (f : Flow) (op : Operation) (hd : d.busy = false) :
    (f.run op).run.ending answer d w =
      (((f.perform op).bind (f.conclude op)).bind fun report => .done (.ok report)).ending answer
        (begun d) w := by
  rw [run_eq, ending_act, hd, if_neg Bool.false_ne_true, accepted, runAccepted_eq, Job.bind,
    ending_act]
  rfl

/-- A run that is not refused hands the wallet what was prepared. -/
theorem run_hands (f : Flow) (op : Operation) (hd : d.busy = false) :
    Hands (f.handed ((f.prepare op).run.ending answer (begun d) w).result) d
      ((f.run op).run.ending answer d w) := by
  rw [run_ending f op hd]
  have hperform : Hands _ (begun d) ((f.perform op).ending answer (begun d) w) := f.perform_hands op
  have hreport := hperform.then_silent (f.conclude_silent op)
  have hrun : Hands _ (begun d) ((((f.perform op).bind (f.conclude op)).bind fun report =>
      .done (Except.ok report : Except Fault Report)).ending answer (begun d) w) :=
    hreport.then_silent fun _ => trivial
  exact ⟨hrun.sent, hrun.counted⟩

theorem perform_result {f : Flow} {op : Operation} {fault : Fault}
    (h : ((f.prepare op).run.ending answer d w).result = .error fault) :
    ((f.perform op).ending answer d w).result = (none, .error fault) := by
  rw [perform_eq, ending_bind]
  dsimp only
  rw [h]
  rfl

/-- A run that is not refused ends with a report, of the fault in preparing if there was one. -/
theorem run_result (f : Flow) (op : Operation) (hd : d.busy = false) :
    ∃ report, ((f.run op).run.ending answer d w).result = .ok report ∧
      ∀ fault, ((f.prepare op).run.ending answer (begun d) w).result = .error fault →
        report.outcome = .error fault := by
  have hconclude : ∀ acted d w,
      ((f.conclude op acted).ending answer d w).result.outcome = acted.2 := by
    intro acted d w
    rw [conclude, ending_bind]
    rfl
  rw [run_ending f op hd, ending_bind, ending_bind]
  refine ⟨_, rfl, fun fault hfault => (hconclude _ _ _).trans ?_⟩
  exact congrArg Prod.snd (perform_result hfault)

/-- **The wallet is handed what was audited.** A run that is not refused hands over a transaction
    just where the wallet reports an account, the store takes it in if it is another one than
    before, and the operation can be built in its name: then it is this manifest, which passes
    the audit, once. Otherwise nothing is handed over or counted, and the report says what was
    in the way. -/
theorem run_sends_what_was_audited (f : Flow) (op : Operation)
    (answer : (q : Question) → StateM ω q.Answer) (d : Desk) (w : ω) (hd : d.busy = false) :
    let e := (f.run op).run.ending answer d w
    let sent := Question.requests e.asked
    (sent ≠ [] ↔ ∃ account manifest, Cleared f op answer d.account w account manifest) ∧
    (∀ account manifest, Cleared f op answer d.account w account manifest →
      sent = [⟨Manifest.render manifest, 1, f.message⟩] ∧
        Manifest.audit manifest account = .ok () ∧
        e.state.metrics.submitted = d.metrics.submitted + 1) ∧
    ((∀ account manifest, ¬ Cleared f op answer d.account w account manifest) →
      sent = [] ∧ e.state.metrics.submitted = d.metrics.submitted ∧
        ∃ report fault, e.result = .ok report ∧ report.outcome = .error fault ∧
          Hindered f op answer d.account w fault) := by
  intro e sent
  have hhands : Hands (f.handed ((f.prepare op).run.ending answer (begun d) w).result) d e :=
    f.run_hands op hd
  have hcleared : ∀ account manifest, Cleared f op answer d.account w account manifest →
      Hands [⟨Manifest.render manifest, 1, f.message⟩] d e := by
    intro account manifest h
    rwa [prepare_cleared (d := begun d) h] at hhands
  have hhindered : (∀ account manifest, ¬ Cleared f op answer d.account w account manifest) →
      ∃ fault, Hindered f op answer d.account w fault ∧ Hands [] d e ∧
        ∃ report, e.result = .ok report ∧ report.outcome = .error fault := by
    intro h
    obtain ⟨fault, hresult, hfault⟩ := prepare_hindered (d := begun d) h
    obtain ⟨report, hreport, houtcome⟩ := f.run_result op hd (w := w)
    rw [hresult] at hhands
    exact ⟨fault, hfault, hhands, report, hreport, houtcome fault hresult⟩
  refine ⟨⟨fun hne => ?_, ?_⟩, fun account manifest h => ?_, fun h => ?_⟩
  · by_contra hnone
    obtain ⟨-, -, hhands, -⟩ := hhindered fun account manifest h => hnone ⟨account, manifest, h⟩
    exact hne hhands.sent
  · rintro ⟨account, manifest, h⟩ hnone
    have hsent : sent = [_] := (hcleared account manifest h).sent
    simp [hsent] at hnone
  · have hhands := hcleared account manifest h
    exact ⟨hhands.sent, Operation.audit_of_build h.built, hhands.counted⟩
  · obtain ⟨fault, hfault, hhands, report, hreport, houtcome⟩ := hhindered h
    exact ⟨hhands.sent, hhands.counted, report, fault, hreport, houtcome, hfault⟩

/-- Also where the first account is blank and the second one is new to the store. -/
theorem run_sends_what_was_audited_new_account :
    let account : AccountRef := ⟨"account_rdx1qqqqqq", by decide, by decide⟩
    let f : Flow := ⟨⟨fun _ => some "resource_rdx1qqqqqq"⟩, .standard, some "hello", .outside, true⟩
    let op : Operation := .listOnMarketplace 7 (.ofWhole 3 (by decide)) (.ofWhole 2 (by decide))
    let answer : (q : Question) → StateM Unit q.Answer := fun
      | .accounts => pure (.ok [⟨" ", none⟩, ⟨" account_rdx1qqqqqq ", none⟩])
      | .save _ => pure (.ok ())
      | .sign _ | .entities _ | .component _ | .nonFungible _ _ | .status _ | .details _ | .load
      | .clear | .refresh => pure (.error .userRejected)
      | .wait _ => pure ()
      | .now => pure 0
    ∃ m, op.build account f.addresses = .ok m ∧
      Question.requests ((f.run op).run.ending answer .fresh ()).asked =
        [⟨Manifest.render m, 1, some "hello"⟩] := by
  intro account f op answer
  have hready : Operation.Ready account f.addresses op :=
    ⟨fun _ _ => rfl, by decide, by decide, by decide⟩
  obtain ⟨m, hbuilt⟩ := Operation.exists_build hready
  have hfirst : Connection.IsFirst [⟨" ", none⟩, ⟨" account_rdx1qqqqqq ", none⟩] (some account) :=
    ⟨[⟨" ", none⟩], _, [], rfl, by decide, by decide⟩
  have hcleared : Cleared f op answer none () account m :=
    ⟨⟨⟨_, rfl, hfirst⟩, fun _ _ => rfl⟩, hbuilt⟩
  obtain ⟨-, hsent, -⟩ := run_sends_what_was_audited f op answer .fresh () rfl
  exact ⟨m, hbuilt, (hsent account m hcleared).1⟩

end Flow

end LedgerClient
