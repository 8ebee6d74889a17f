/-
  The parts of a run, and what they change and ask.

  * `Desk.Preparing`, `Question.Preparing` and the like list what may be changed and asked in
    each part, and the lemmas `_within` say that nothing else is. What a part leaves alone
    follows from them by `Within.mono`;
  * `Quiet` work leaves the flag, the phase and the count of submissions alone, and hands no
    transaction to the wallet;
  * `submit_eq`, `present_eq`, `runAccepted_eq` and `run_eq` put the steps of a submission, of
    its presentation and of a run one after another.
-/
import LedgerClient.Flow
import LedgerClient.Proofs.Job.Record

namespace LedgerClient

open Job

/-- The request with which a question hands a transaction to the wallet. -/
def Question.request? : Question → Option TransactionRequest
  | sign request => some request
  | _ => none

/-- The transactions that are handed to the wallet with the questions. -/
def Question.requests (qs : List Question) : List TransactionRequest :=
  qs.filterMap request?

/-- What a run controls: the flag of the run under way, and the phase. -/
def Desk.control (d : Desk) : Bool × Phase :=
  (d.busy, d.phase)

/-- How many submissions were counted. -/
def Desk.submitted (d : Desk) : Nat :=
  d.metrics.submitted

/-- What only some steps of a run change: its control, and the count of submissions. -/
def Desk.gauge (d : Desk) : (Bool × Phase) × Nat :=
  (d.control, d.submitted)

/-- Work that leaves the gauge alone, and hands no transaction to the wallet. -/
def Work.Quiet {α : Type} (work : Work α) : Prop :=
  work.Within (fun change => ∀ d, (change d).gauge = d.gauge) fun q => q.request? = none

/-! ## Outcomes -/

theorem Outcome.isSuccess_iff {outcome : Outcome} :
    Outcome.isSuccess outcome = true ↔
      ∃ receipt, outcome = .ok receipt ∧ receipt.status = .success := by
  rcases outcome with fault | receipt
  · simp [Outcome.isSuccess]
  · cases hstatus : receipt.status <;> simp [Outcome.isSuccess, ReceiptStatus.isSuccess, hstatus]

theorem Notice.level_ofOutcome {outcome : Outcome} :
    (Notice.ofOutcome outcome).level = .success ↔ Outcome.isSuccess outcome = true := by
  rcases outcome with fault | receipt
  · simp [Notice.ofOutcome, Outcome.isSuccess]
  · cases hstatus : receipt.status.isSuccess <;> simp [Notice.ofOutcome, Outcome.isSuccess, hstatus]

theorem Presentation.phaseOf_eq_succeeded_iff {notice : Notice} :
    phaseOf notice = .succeeded ↔ notice.level = .success := by
  cases hlevel : notice.level <;> simp [phaseOf, hlevel]

/-! ## Preparing -/

/-- The changes of the desk in preparing a manifest. -/
inductive Desk.Preparing : (Desk → Desk) → Prop
  | account (next : Option AccountRef) : Preparing (setAccount next)
  | built : Preparing (record Metrics.manifestBuilt)

/-- The questions in preparing a manifest. -/
inductive Question.Preparing : Question → Prop
  | accounts : Preparing accounts
  | save (account : AccountRef) : Preparing (save account)
  | clear : Preparing clear

namespace Connection

theorem write_within {changes : (Desk → Desk) → Prop} :
    ∀ next : Option AccountRef, (write next).run.Within changes Question.Preparing
  | some account => .request (.save account)
  | none => .request .clear

theorem update_within (stored : Bool) (accounts : List WalletAccount) :
    (update stored accounts).run.Within (fun change => ∃ next, change = Desk.setAccount next)
      Question.Preparing := by
  refine .run_bind ⟨⟨_, rfl⟩, fun _ => trivial⟩ fun before => ?_
  dsimp only
  split
  · exact .run_bind (write_within _) fun _ => trivial
  · trivial

/-- Resolving changes the connected account only. -/
theorem resolve_within (stored : Bool) :
    (resolve stored).run.Within (fun change => ∃ next, change = Desk.setAccount next)
      Question.Preparing := by
  refine .run_bind (.request .accounts) fun accounts => ?_
  refine .run_bind (update_within stored accounts) fun account => ?_
  cases account <;> trivial

end Connection

namespace Flow

theorem prepare_within (f : Flow) (op : Operation) :
    (f.prepare op).run.Within Desk.Preparing Question.Preparing := by
  refine .run_bind ((Connection.resolve_within f.stored).mono ?_ fun _ hq => hq) fun account => ?_
  · rintro _ ⟨next, rfl⟩
    exact .account next
  refine .run_bind (.except _) fun manifest => ?_
  exact .run_bind ⟨.built, fun _ => trivial⟩ fun _ => trivial

theorem prepare_quiet (f : Flow) (op : Operation) : Work.Quiet (f.prepare op).run :=
  (f.prepare_within op).mono (fun _ hc d => by cases hc <;> rfl) fun _ hq => by cases hq <;> rfl

end Flow

/-! ## Submitting -/

/-- The questions in submitting a transaction, apart from handing it to the wallet. -/
inductive Question.Awaiting : Question → Prop
  | status (intentHash : String) : Awaiting (status intentHash)
  | wait (ms : Nat) : Awaiting (wait ms)
  | details (intentHash : String) : Awaiting (details intentHash)
  | now : Awaiting now

namespace Transaction

theorem poll_within {changes : (Desk → Desk) → Prop} (intervalMs : Nat) (intentHash : String) :
    ∀ more, (poll intervalMs intentHash more).run.Within changes Question.Awaiting
  | 0 => .run_bind (.request (.status intentHash)) fun _ => trivial
  | more + 1 => by
    refine .run_bind (.request (.status intentHash)) fun answer => ?_
    dsimp only
    split
    · trivial
    · exact .run_bind (.bind (.request (.wait intervalMs)) fun _ => trivial) fun _ =>
        poll_within intervalMs intentHash more

/-- Awaiting a receipt changes nothing. -/
theorem awaitReceipt_within {changes : (Desk → Desk) → Prop} (s : Submission)
    (intentHash : String) : (awaitReceipt s intentHash).run.Within changes Question.Awaiting := by
  refine .run_bind (poll_within _ _ _) fun polled => ?_
  split
  · exact .run_bind (.bind (.request (.details intentHash)) fun _ => trivial) fun _ => trivial
  · trivial

/-- What follows the wallet's answer: the receipt is awaited and the outcome recorded. -/
def settle (s : Submission) (start : Nat) (reply : Except Fault String) : Work Outcome :=
  (proceed (fun intentHash => (awaitReceipt s intentHash).run) reply).bind fun outcome =>
    .ask .now fun stop => .act (Desk.record fun m =>
      m.outcome (Outcome.isSuccess outcome) (Metrics.secondsBetween start stop)) fun _ =>
        .done outcome

/-- What follows the wallet's answer records the outcome, and changes nothing else. -/
theorem settle_within (s : Submission) (start : Nat) (reply : Except Fault String) :
    (settle s start reply).Within (fun change => ∃ success seconds,
      change = Desk.record fun m => m.outcome success seconds) Question.Awaiting := by
  refine .bind (.proceed (fun hash => awaitReceipt_within s hash) reply) fun outcome => ?_
  exact ⟨.now, fun stop => ⟨⟨_, _, rfl⟩, fun _ => trivial⟩⟩

theorem settle_quiet (s : Submission) (start : Nat) (reply : Except Fault String) :
    Work.Quiet (settle s start reply) := by
  refine (settle_within s start reply).mono ?_ fun _ hq => by cases hq <;> rfl
  rintro _ ⟨success, seconds, rfl⟩ d
  rfl

/-- A submission is counted, then the wallet is asked once, then the receipt is awaited. -/
theorem submit_eq (s : Submission) (message : Option String) (manifest : Manifest) :
    submit s message manifest =
      .ask .now fun start => .act (Desk.record Metrics.submission) fun _ =>
        .ask (.sign (requestFor message manifest)) (settle s start) := by
  have hattempt : (do awaitReceipt s (← Ask.sign (requestFor message manifest)) :
      Attempt Receipt).run = .ask (.sign (requestFor message manifest))
        (proceed fun intentHash => (awaitReceipt s intentHash).run) := run_bind_eq _ _
  rw [submit, hattempt]
  rfl

end Transaction

/-! ## Presenting -/

/-- The changes of the desk in presenting an outcome and after it. -/
inductive Desk.Presenting : (Desk → Desk) → Prop
  | phase (phase : Phase) : Presenting (setPhase phase)
  | notice (notice : Notice) : Presenting (notify notice)
  | balances (balances : Balances) : Presenting (setBalances balances)
  | lower : Presenting (setBusy false)

/-- The questions in presenting an outcome. -/
inductive Question.Presenting : Question → Prop
  | wait (ms : Nat) : Presenting (wait ms)
  | entities (addresses : List String) : Presenting (entities addresses)
  | refresh : Presenting refresh

theorem Ledger.balances_within {changes : (Desk → Desk) → Prop} (account : AccountRef) :
    (Ledger.balances account).run.Within changes Question.Presenting :=
  .run_bind (.run_bind (.request (.entities [account.address])) fun _ => .except _) fun _ =>
    .except _

/-- A refresh changes the balances only. -/
theorem Flow.refresh_within (f : Flow) (account : Option AccountRef) :
    (f.refresh account).run.Within (fun change => ∃ b, change = Desk.setBalances b)
      Question.Presenting := by
  unfold Flow.refresh
  split
  · cases account with
    | none => trivial
    | some account =>
      exact .run_bind (Ledger.balances_within account) fun b => ⟨⟨b, rfl⟩, fun _ => trivial⟩
  · exact .request .refresh

namespace Presentation

/-- The reading again that goes with an outcome, and whether it went well. -/
def again (delayMs : Nat) (phase : Phase) (refresh : Attempt Unit) : Work Bool :=
  match phase with
  | .succeeded => refreshAfter delayMs refresh
  | _ => .done false

theorem again_within {changes : (Desk → Desk) → Prop} (delayMs : Nat) (phase : Phase)
    {refresh : Attempt Unit} (h : refresh.run.Within changes Question.Presenting) :
    (again delayMs phase refresh).Within changes Question.Presenting := by
  unfold again
  split
  · refine .bind (.request (.wait delayMs)) fun _ => .bind h fun r => ?_
    cases r <;> trivial
  · trivial

/-- The phase of the outcome is shown and the notice given, the ledger may be read again, and
    then the phase is idle. -/
theorem present_eq (delayMs : Nat) (outcome : Outcome) (refresh : Attempt Unit) :
    present delayMs outcome (some refresh) =
      .act (Desk.setPhase (phaseOf (Notice.ofOutcome outcome))) fun _ =>
        .act (Desk.notify (Notice.ofOutcome outcome)) fun _ =>
          (again delayMs (phaseOf (Notice.ofOutcome outcome)) refresh).bind fun refreshed =>
            .act (Desk.setPhase .idle) fun _ =>
              .done ⟨Notice.ofOutcome outcome, phaseOf (Notice.ofOutcome outcome), refreshed⟩ := by
  simp only [present]
  cases phaseOf (Notice.ofOutcome outcome) <;> rfl

end Presentation

/-! ## Runs -/

namespace Flow

theorem again_quiet (f : Flow) (account : Option AccountRef) (delayMs : Nat) (phase : Phase) :
    Work.Quiet (Presentation.again delayMs phase (f.refresh account)) := by
  refine (Presentation.again_within delayMs phase (f.refresh_within account)).mono ?_
    fun _ hq => by cases hq <;> rfl
  rintro _ ⟨b, rfl⟩ d
  rfl

/-- What follows the outcome: it is presented, and then the flag is lowered. -/
def conclude (f : Flow) (op : Operation) (acted : Option AccountRef × Outcome) : Work Report :=
  (Presentation.present f.submission.refreshDelayMs acted.2 (some (f.refresh acted.1))).bind
    fun presented => .act (Desk.setBusy false) fun _ => .done ⟨op.name, acted.2, presented⟩

theorem conclude_within (f : Flow) (op : Operation) (acted : Option AccountRef × Outcome) :
    (f.conclude op acted).Within Desk.Presenting Question.Presenting := by
  rw [conclude, Presentation.present_eq]
  refine .bind ⟨.phase _, fun _ => ⟨.notice _, fun _ => .bind ?_ fun _ => ?_⟩⟩ fun _ =>
    ⟨.lower, fun _ => trivial⟩
  · refine Presentation.again_within _ _ ((f.refresh_within acted.1).mono ?_ fun _ hq => hq)
    rintro _ ⟨b, rfl⟩
    exact .balances b
  · exact ⟨.phase _, fun _ => trivial⟩

theorem perform_eq (f : Flow) (op : Operation) :
    f.perform op = (f.prepare op).run.bind fun
      | .ok (account, manifest) =>
        (Transaction.submit f.submission f.message manifest).bind fun outcome =>
          .done (some account, outcome)
      | .error fault => .done (none, .error fault) := by
  unfold perform
  rw [Job.bind_eq]
  congr 1

theorem runAccepted_eq (f : Flow) (op : Operation) :
    f.runAccepted op =
      .act (Desk.setPhase .submitting) fun _ => (f.perform op).bind (f.conclude op) := rfl

/-- What is left of a run that is not refused. -/
def accepted (f : Flow) (op : Operation) : Work (Except Fault Report) :=
  (f.runAccepted op).bind fun report => .done (.ok report)

/-- A run raises the flag, and goes on where it was not up before. -/
theorem run_eq (f : Flow) (op : Operation) :
    (f.run op).run = .act (Desk.setBusy true) fun before =>
      if before.busy then .done (.error .submissionInFlight) else f.accepted op := by
  rw [run, run_bind_eq]
  show Job.act _ _ = _
  congr 1

end Flow

end LedgerClient
