/-
  Rounds: runs that were not refused, one after the other.

  * `Round.IsRun`: a flow has run an operation, with this talk and this report;
  * `Round.Told`: the outcome is told once, and the ledger is read again at most once;
  * `History`: rounds one after the other, whatever was answered and whatever others did meanwhile;
  * `History.outcomes_told_once`: every round of a history tells its outcome once.
-/
import LedgerClient.Proofs.Flow.Sending
import LedgerClient.Proofs.Flow.Telling

namespace LedgerClient

open Job

/-! ## Rounds -/

/-- A run that was not refused: where it began, what was asked, the report and where it ended. -/
structure Round where
  operation : Operation
  before : Desk
  talk : Talk
  report : Report
  after : Desk

namespace Round

/-- The flow has run the operation. Others may have changed all but what is standing. -/
def IsRun (f : Flow) (r : Round) : Prop :=
  Course Desk.standing (f.run r.operation).run r.before r.talk (.ok r.report) r.after

/-- The refresher is invoked once, after the delay and for the account that acts. What it brings
    makes no difference to the outcome and to what the user is told. -/
structure Rereads (f : Flow) (r : Round) (account : AccountRef) (earlier reading : Talk)
    (read : Except Fault (Option Balances)) : Prop where
  talk : r.talk = earlier ++ ⟨.wait f.submission.refreshDelayMs, ()⟩ :: reading
  earlier_unread : ∀ e ∈ earlier, e.question.isReading = false
  acts : f.Acts r.operation earlier account
  refreshes : Flow.Refreshes account f.refresher reading read
  refreshed : r.report.presented.refreshed = true ↔ ∃ b, read = .ok b
  after : r.after.standing = (false, Flow.adopt r.before.balances read,
    r.before.notices ++ [r.report.presented.notice])
  whatever_read : ∀ reading' read', Flow.Refreshes account f.refresher reading' read' →
    ∃ report after, Course Desk.standing (f.run r.operation).run r.before
        (earlier ++ ⟨.wait f.submission.refreshDelayMs, ()⟩ :: reading') (.ok report) after ∧
      report.outcome = r.report.outcome ∧
      report.presented.notice = r.report.presented.notice ∧
      report.presented.phase = r.report.presented.phase

/-- The outcome is told once, and the ledger is read again just where it is a success. -/
structure Told (f : Flow) (r : Round) : Prop where
  told : r.after.notices = r.before.notices ++ [r.report.presented.notice]
  level_iff : r.report.presented.notice.level = .success ↔
    r.report.presented.phase = .succeeded
  phase_iff : r.report.presented.phase = .succeeded ↔
    ∃ receipt, r.report.outcome = .ok receipt ∧ receipt.status = .success
  receipt_iff : (∃ receipt, r.report.outcome = .ok receipt ∧ receipt.status = .success) ↔
    r.report.isSuccess = true
  rereads : r.report.isSuccess = true →
    ∃ account earlier reading read, r.Rereads f account earlier reading read
  unread : r.report.isSuccess = false → (∀ e ∈ r.talk, e.question.isReading = false) ∧
    r.report.presented.refreshed = false
  kept : r.report.presented.refreshed = false → r.after.balances = r.before.balances
  adopted : f.refresher = .balances → r.report.presented.refreshed = true →
    ∃ account items entity balances, f.Acts r.operation r.talk account ∧
      ⟨.entities [account.address], .ok items⟩ ∈ r.talk ∧
      Ledger.select account.address items = .ok entity ∧
      Balances.ofEntity entity = .ok balances ∧ r.after.balances = some balances

variable {f : Flow} {r : Round}

namespace Rereads

variable {account : AccountRef} {earlier reading : Talk} {read : Except Fault (Option Balances)}

theorem kept (h : r.Rereads f account earlier reading read)
    (hrefreshed : r.report.presented.refreshed = false) :
    r.after.balances = r.before.balances := by
  have hafter : r.after.balances = Flow.adopt r.before.balances read := congrArg (·.2.1) h.after
  cases read with
  | error fault => exact hafter
  | ok read =>
    rw [h.refreshed.2 ⟨read, rfl⟩] at hrefreshed
    contradiction

theorem adopted (h : r.Rereads f account earlier reading read) (hf : f.refresher = .balances)
    (hrefreshed : r.report.presented.refreshed = true) :
    ∃ items entity balances, f.Acts r.operation r.talk account ∧
      ⟨.entities [account.address], .ok items⟩ ∈ r.talk ∧
      Ledger.select account.address items = .ok entity ∧
      Balances.ofEntity entity = .ok balances ∧ r.after.balances = some balances := by
  have hafter : r.after.balances = Flow.adopt r.before.balances read := congrArg (·.2.1) h.after
  obtain ⟨_, rfl⟩ := h.refreshed.1 hrefreshed
  obtain ⟨items, entity, balances, rfl, hentity, hbalances, rfl⟩ :=
    (hf ▸ h.refreshes).balances_ok
  refine ⟨items, entity, balances, h.talk ▸ h.acts.append _, ?_, hentity, hbalances, hafter⟩
  rw [h.talk]
  simp

end Rereads

theorem IsRun.idle (h : r.IsRun f) : r.before.busy = false := by
  rw [IsRun, Flow.run_eq, Course.act_iff] at h
  obtain ⟨d, hd, hrest⟩ := h
  rw [← show d.busy = r.before.busy from congrArg Prod.fst hd]
  cases hbusy : d.busy with
  | false => rfl
  | true =>
    rw [hbusy] at hrest
    cases (Course.done_iff.1 hrest).2.1

theorem IsRun.parts (h : r.IsRun f) :
    ∃ earlier acted d₁ later, r.talk = earlier ++ later ∧
      Course Desk.standing (f.perform r.operation) (r.before.setBusy true) earlier acted d₁ ∧
      Course Desk.standing (f.conclude r.operation acted) d₁ later r.report r.after := by
  obtain ⟨earlier, acted, d₁, later, report, htalk, hperform, hconclude, hreport⟩ :=
    (Flow.run_course_iff h.idle).1 h
  obtain rfl : r.report = report := Except.ok.inj hreport
  exact ⟨earlier, acted, d₁, later, htalk, hperform, hconclude⟩

theorem IsRun.reported (h : r.IsRun f) :
    r.report.presented.notice = Notice.ofOutcome r.report.outcome ∧
      r.report.presented.phase = Presentation.phaseOf r.report.presented.notice := by
  obtain ⟨_, acted, d₁, _, -, -, hconclude⟩ := h.parts
  obtain ⟨houtcome, hnotice, hphase⟩ := Flow.conclude_report hconclude
  rw [houtcome, hphase, hnotice]
  exact ⟨rfl, rfl⟩

/-- Where the outcome is a success, the refresher is invoked once. -/
theorem IsRun.rereads (h : r.IsRun f) (hsuccess : r.report.isSuccess = true) :
    ∃ account earlier reading read, r.Rereads f account earlier reading read := by
  obtain ⟨earlier, ⟨acted, outcome⟩, d₁, later, htalk, hperform, hconclude⟩ := h.parts
  obtain ⟨hstanding, hunread, hacted⟩ := Flow.perform_course hperform
  obtain rfl : r.report.outcome = outcome := (Flow.conclude_report hconclude).1
  obtain ⟨receipt, hreceipt, -⟩ := Outcome.isSuccess_iff.1 hsuccess
  obtain ⟨account, rfl, hacts⟩ := hacted receipt hreceipt
  obtain ⟨reading, read, rfl, hread, hr, hafter⟩ :=
    (Flow.conclude_course_iff_of_success hsuccess).1 hconclude
  refine ⟨account, earlier, reading, read, htalk, hunread, hacts, hread, ?_, ?_, ?_⟩
  · rw [hr]
    cases read <;> simp [Except.toBool]
  · simp only [Desk.standing, Desk.setBusy, Prod.mk.injEq] at hstanding
    rw [hafter, hstanding.2.1, hstanding.2.2, h.reported.1]
  · -- up to the delay nothing depends on what is read, so the same run may be answered otherwise
    intro reading' read' hread'
    have hconclude' : Course Desk.standing
        (f.conclude r.operation (some account, r.report.outcome)) d₁
        (⟨.wait f.submission.refreshDelayMs, ()⟩ :: reading')
        ⟨r.operation.name, r.report.outcome, Notice.ofOutcome r.report.outcome, .succeeded,
          read'.toBool⟩
        ⟨false, .idle, d₁.account, Flow.adopt d₁.balances read', d₁.metrics,
          d₁.notices ++ [Notice.ofOutcome r.report.outcome]⟩ :=
      (Flow.conclude_course_iff_of_success hsuccess).2 ⟨reading', read', rfl, hread', rfl, rfl⟩
    have hrun := (Flow.run_course_iff h.idle).2
      ⟨earlier, _, d₁, _, _, rfl, hperform, hconclude', rfl⟩
    exact ⟨_, _, hrun, rfl, by rw [hr], by rw [hr]⟩

/-- Where it is not, the ledger is not read again. -/
theorem IsRun.unread (h : r.IsRun f) (hfailure : r.report.isSuccess = false) :
    (∀ e ∈ r.talk, e.question.isReading = false) ∧ r.report.presented.refreshed = false ∧
      r.after.standing =
        (false, r.before.balances, r.before.notices ++ [r.report.presented.notice]) := by
  obtain ⟨earlier, acted, d₁, later, htalk, hperform, hconclude⟩ := h.parts
  obtain ⟨hstanding, hunread, -⟩ := Flow.perform_course hperform
  have houtcome : r.report.outcome = acted.2 := (Flow.conclude_report hconclude).1
  have hfailed : Outcome.isSuccess acted.2 = false := houtcome ▸ hfailure
  obtain ⟨rfl, hrefreshed, hafter⟩ := Flow.conclude_course_of_failure hfailed hconclude
  simp only [Desk.standing, Desk.setBusy, Prod.mk.injEq] at hstanding
  rw [htalk, List.append_nil, hafter, hstanding.2.1, hstanding.2.2, h.reported.1, houtcome]
  exact ⟨hunread, hrefreshed, rfl⟩

/-- What a run leaves behind. -/
theorem IsRun.leaves (h : r.IsRun f) : r.after.busy = false ∧
    r.after.notices = r.before.notices ++ [r.report.presented.notice] ∧
    (r.report.presented.refreshed = false → r.after.balances = r.before.balances) := by
  cases hresult : r.report.isSuccess with
  | false =>
    obtain ⟨-, -, hafter⟩ := h.unread hresult
    exact ⟨congrArg (·.1) hafter, congrArg (·.2.2) hafter, fun _ => congrArg (·.2.1) hafter⟩
  | true =>
    obtain ⟨account, earlier, reading, read, hrereads⟩ := h.rereads hresult
    exact ⟨congrArg (·.1) hrereads.after, congrArg (·.2.2) hrereads.after, hrereads.kept⟩

/-- **A run tells its outcome once, and reads again at most once.** -/
theorem IsRun.told (h : r.IsRun f) : r.Told f := by
  obtain ⟨hnotice, hphase⟩ := h.reported
  have hlevel : r.report.presented.notice.level = .success ↔
      r.report.presented.phase = .succeeded := by
    rw [hphase, Presentation.phaseOf_eq_succeeded_iff]
  have hsuccess : r.report.presented.phase = .succeeded ↔ r.report.isSuccess = true := by
    rw [← hlevel, hnotice, Notice.level_ofOutcome]
    rfl
  have hreceipt : r.report.isSuccess = true ↔
      ∃ receipt, r.report.outcome = .ok receipt ∧ receipt.status = .success :=
    Outcome.isSuccess_iff
  obtain ⟨-, hnotices, hkept⟩ := h.leaves
  refine ⟨hnotices, hlevel, hsuccess.trans hreceipt, hreceipt.symm, h.rereads,
    fun hfailure => ?_, hkept, fun hbalances hrefreshed => ?_⟩
  · obtain ⟨hunread, hrefreshed, -⟩ := h.unread hfailure
    exact ⟨hunread, hrefreshed⟩
  · cases hresult : r.report.isSuccess with
    | false =>
      obtain ⟨-, hunrefreshed, -⟩ := h.unread hresult
      rw [hunrefreshed] at hrefreshed
      contradiction
    | true =>
      obtain ⟨account, earlier, reading, read, hrereads⟩ := h.rereads hresult
      exact ⟨account, hrereads.adopted hbalances hrefreshed⟩

end Round

/-! ## Histories -/

/-- Runs that were not refused, one after the other. -/
inductive History (f : Flow) : Desk → List Round → Desk → Prop
  | nil (d : Desk) : History f d [] d
  | run {d d' : Desk} {r : Round} {rounds : List Round} (hbefore : r.before.standing = d.standing)
      (h : r.IsRun f) (hrest : History f r.after rounds d') : History f d (r :: rounds) d'

namespace History

variable {f : Flow} {d d' : Desk} {r : Round} {rounds : List Round}

theorem append (h : History f d rounds d') (hbefore : r.before.standing = d'.standing)
    (hr : r.IsRun f) : History f d (rounds ++ [r]) r.after := by
  induction h with
  | nil d => exact .run hbefore hr (.nil _)
  | run hbefore' h _ ih => exact .run hbefore' h (ih hbefore)

theorem idle (h : History f d rounds d') (hd : d.busy = false) : d'.busy = false := by
  induction h with
  | nil d => exact hd
  | run _ h _ ih => exact ih h.leaves.1

theorem isRun (h : History f d rounds d') : ∀ r ∈ rounds, r.IsRun f := by
  induction h with
  | nil d => simp
  | run _ h _ ih => exact List.forall_mem_cons.2 ⟨h, ih⟩

theorem notices (h : History f d rounds d') :
    d'.notices = d.notices ++ rounds.map (·.report.presented.notice) := by
  induction h with
  | nil d => simp
  | run hbefore h _ ih =>
    simp only [Desk.standing, Prod.mk.injEq] at hbefore
    simp [ih, h.leaves.2.1, hbefore]

/-- The balances are those after the last run that has read them again. -/
theorem balances (h : History f d rounds d') :
    d'.balances = rounds.foldl (fun kept r =>
      if r.report.presented.refreshed then r.after.balances else kept) d.balances := by
  induction h with
  | nil d => rfl
  | @run d d' r rounds hbefore h _ ih =>
    rw [ih, List.foldl_cons]
    congr 1
    split
    · rfl
    · rename_i hrefreshed
      rw [h.leaves.2.2 (by simpa using hrefreshed)]
      exact congrArg (·.2.1) hbefore

/-- **Every outcome is told once, and the ledger is read again at most once for it.** The next run
    on the desk, if it was idle at first, is not refused, whatever it is answered. -/
theorem outcomes_told_once (h : History f d rounds d') :
    d'.notices = d.notices ++ rounds.map (·.report.presented.notice) ∧
    d'.balances = rounds.foldl (fun kept r =>
      if r.report.presented.refreshed then r.after.balances else kept) d.balances ∧
    (∀ r ∈ rounds, r.Told f) ∧
    (d.busy = false → ∀ op talk result d'',
      Course Desk.standing (f.run op).run d' talk result d'' →
        ∃ report, result = .ok report ∧
          History f d (rounds ++ [⟨op, d', talk, report, d''⟩]) d'') := by
  refine ⟨h.notices, h.balances, fun r hr => (h.isRun r hr).told, fun hd => ?_⟩
  intro op talk result d'' hcourse
  obtain ⟨-, -, -, -, report, -, -, -, rfl⟩ := (Flow.run_course_iff (h.idle hd)).1 hcourse
  exact ⟨report, rfl, h.append (r := ⟨op, d', talk, report, d''⟩) rfl hcourse⟩

/-- Also where the built-in refresher reads what a sale has brought. -/
theorem outcomes_told_once_with_balances :
    let account : AccountRef := ⟨"account_rdx1qqqqqq", by decide, by decide⟩
    let token := "resource_rdx1qqqqqq"
    let f : Flow := ⟨⟨fun _ => some token⟩, .standard, none, .balances, false⟩
    let op : Operation := .listOnMarketplace 7 (.ofWhole 3 (by decide)) (.ofWhole 2 (by decide))
    let answer : (q : Question) → StateM Unit q.Answer := fun
      | .accounts => pure (.ok [⟨account.address, none⟩])
      | .sign _ => pure (.ok "txid_1")
      | .status _ => pure (.ok ⟨"CommittedSuccess", none, none⟩)
      | .entities _ => pure (.ok [⟨account.address, some [⟨token, some "3", none⟩], none, none⟩])
      | .save _ | .component _ | .nonFungible _ _ | .details _ | .load | .clear | .refresh =>
        pure (.error .userRejected)
      | .wait _ => pure ()
      | .now => pure 0
    let e := (f.run op).run.ending answer .fresh ()
    ∃ talk report, History f .fresh [⟨op, .fresh, talk, report, e.state⟩] e.state ∧
      report.isSuccess = true ∧ e.state.notices = [report.presented.notice] ∧
      e.state.balances = some ⟨account.address, [⟨token, .ofWhole 3 (by decide)⟩], [], []⟩ := by
  intro account token f op answer e
  have hready : Operation.Ready account f.addresses op :=
    ⟨fun _ _ => rfl, by decide, by decide, by decide⟩
  obtain ⟨m, hbuilt⟩ := Operation.exists_build hready
  have hcleared : Flow.Cleared f op answer none () account m :=
    ⟨⟨⟨_, rfl, Connection.isFirst_iff.2 (by decide)⟩, nofun⟩, hbuilt⟩
  have hperform : ((f.perform op).ending answer (Flow.begun .fresh) ()).result =
      (some account, .ok (.bare "txid_1" .success)) := by
    rw [Flow.perform_eq, ending_bind]
    dsimp only
    rw [Flow.prepare_cleared hcleared]
    rfl
  have hend : ∃ report d, e.result = .ok report ∧ report.isSuccess = true ∧
      e.state = ((f.conclude op (some account, .ok (.bare "txid_1" .success))).ending answer d
        ()).state := by
    unfold e
    rw [Flow.run_ending f op rfl, ending_bind, ending_bind]
    dsimp only
    rw [hperform]
    exact ⟨_, _, rfl, rfl, rfl⟩
  obtain ⟨report, d, hresult, hsuccess, hstate⟩ := hend
  have hcourse : ∃ talk : Talk, talk.map Answered.question = e.asked ∧
      Course Desk.standing (f.run op).run .fresh talk e.result e.state :=
    exists_course Desk.standing (f.run op).run .fresh ()
  clear_value e
  rw [hresult] at hcourse
  obtain ⟨talk, -, hrun⟩ := hcourse
  have hhistory : History f .fresh [⟨op, .fresh, talk, report, e.state⟩] e.state :=
    .run rfl hrun (.nil _)
  obtain ⟨hnotices, -⟩ := hhistory.outcomes_told_once
  refine ⟨talk, report, hhistory, hsuccess, hnotices, ?_⟩
  rw [hstate]
  rfl

end History

end LedgerClient
