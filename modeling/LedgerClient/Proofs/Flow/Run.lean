/-
  One run: what it controls, and how often it hands something to the wallet.

  * `Silent` work counts no submission and hands no transaction to the wallet; quiet work is
    silent, and so is all that follows the outcome of a submission;
  * `accepted_upholds`: a run that is not refused keeps the flag up until it ends, and then it
    gives the control back, whatever the answers were;
  * `run_spares`: a run hands the wallet at most one transaction.
-/
import LedgerClient.Proofs.Flow.Parts

namespace LedgerClient

open Job

/-! ## Silence -/

/-- Whether a question hands a transaction to the wallet. -/
def Question.handsOver (q : Question) : Bool :=
  q.request?.isSome

/-- Work that leaves the count of submissions alone, and hands no transaction to the wallet. -/
def Work.Silent {α : Type} (work : Work α) : Prop :=
  work.Within (fun change => ∀ d, (change d).submitted = d.submitted) fun q => q.request? = none

namespace Work

variable {α β : Type} {work : Work α}

theorem Quiet.silent (h : work.Quiet) : work.Silent :=
  h.mono (fun _ hc d => congrArg Prod.snd (hc d)) fun _ hq => hq

theorem Silent.spares (h : work.Silent) : work.Spares Question.handsOver 0 :=
  .of_within (h.mono (fun _ hc => hc) fun _ hq => by simp [Question.handsOver, hq])

/-- Where silent work comes first, what follows it has all of the budget. -/
theorem Silent.spares_bind {n : Nat} {f : α → Work β} (h : work.Silent)
    (hf : ∀ a, (f a).Spares Question.handsOver n) : (work.bind f).Spares Question.handsOver n :=
  (h.spares.bind hf).mono (Nat.le_of_eq (Nat.zero_add n))

theorem Quiet.upholds {during : Bool × Phase → Prop} {v : Bool × Phase} (h : work.Quiet)
    (hv : during v) : work.Upholds Desk.control during (fun _ v' => v' = v) v :=
  .of_within (h.mono (fun _ hc d => congrArg Prod.fst (hc d)) fun _ hq => hq) hv

end Work

namespace Flow

theorem conclude_silent (f : Flow) (op : Operation) (acted : Option AccountRef × Outcome) :
    (f.conclude op acted).Silent :=
  (f.conclude_within op acted).mono (fun _ hc d => by cases hc <;> rfl) fun _ hq => by
    cases hq <;> rfl

/-! ## Control -/

/-- The flag of the run under way is up. -/
def Taken (control : Bool × Phase) : Prop :=
  control.1 = true

/-- A run has ended with a report, the flag is down again and the phase is idle. -/
def Released (r : Except Fault Report) (control : Bool × Phase) : Prop :=
  (∃ report, r = .ok report) ∧ control = (false, .idle)

/-- A change of the phase leaves the flag up. -/
theorem Taken.setPhase {α : Type} {phase : Phase} {next : Desk → Work α}
    {after : α → Bool × Phase → Prop} {v : Bool × Phase} (hv : Taken v)
    (h : ∀ d, (next d).Upholds Desk.control Taken after (v.1, phase)) :
    Upholds Desk.control Taken after (.act (Desk.setPhase phase) next) v := by
  refine ⟨hv, ?_⟩
  rintro d rfl
  exact h d

theorem submit_upholds (f : Flow) (manifest : Manifest) {v : Bool × Phase} (hv : Taken v) :
    (Transaction.submit f.submission f.message manifest).Upholds Desk.control Taken
      (fun _ v' => v' = v) v := by
  rw [Transaction.submit_eq]
  refine ⟨hv, fun start => ⟨hv, ?_⟩⟩
  rintro d rfl
  exact ⟨hv, fun reply => (Transaction.settle_quiet f.submission start reply).upholds hv⟩

theorem perform_upholds (f : Flow) (op : Operation) {v : Bool × Phase} (hv : Taken v) :
    (f.perform op).Upholds Desk.control Taken (fun _ v' => v' = v) v := by
  rw [perform_eq]
  refine ((f.prepare_quiet op).upholds hv).bind ?_
  rintro (fault | ⟨account, manifest⟩) _ rfl
  · rfl
  · exact (f.submit_upholds manifest hv).bind fun _ _ h => h

theorem present_upholds (f : Flow) (account : Option AccountRef) (outcome : Outcome)
    {v : Bool × Phase} (hv : Taken v) :
    (Presentation.present f.submission.refreshDelayMs outcome (some (f.refresh account))).Upholds
      Desk.control Taken (fun _ v' => v' = (v.1, .idle)) v := by
  rw [Presentation.present_eq]
  have hshown : ∀ phase : Phase, Taken (v.1, phase) := fun _ => hv
  refine hv.setPhase fun _ => ⟨hv, fun d hd => ?_⟩
  have hnotify : (Desk.notify (Notice.ofOutcome outcome) d).control = d.control := rfl
  rw [hnotify, hd]
  have hquiet := f.again_quiet account f.submission.refreshDelayMs
    (Presentation.phaseOf (Notice.ofOutcome outcome))
  refine (hquiet.upholds (hshown _)).bind ?_
  rintro refreshed _ rfl
  exact (hshown _).setPhase fun _ => rfl

/-- **A run that is not refused keeps the flag up until it ends, and it ends with a report,
    the flag down and the phase idle.** -/
theorem accepted_upholds (f : Flow) (op : Operation) {v : Bool × Phase} (hv : Taken v) :
    (f.accepted op).Upholds Desk.control Taken Released v := by
  have hsubmitting : Taken (v.1, .submitting) := hv
  rw [accepted, runAccepted_eq, Job.bind, Job.bind_assoc]
  refine hv.setPhase fun _ => (f.perform_upholds op hsubmitting).bind ?_
  rintro acted _ rfl
  rw [conclude, Job.bind_assoc]
  refine (f.present_upholds acted.1 acted.2 hsubmitting).bind ?_
  rintro presented _ rfl
  -- the phase is idle already, and the last change lowers the flag
  refine ⟨hv, fun d hd => ⟨⟨_, rfl⟩, ?_⟩⟩
  have hphase : d.phase = .idle := congrArg Prod.snd hd
  exact congrArg (Prod.mk false) hphase

/-! ## Transactions -/

theorem submit_spares (f : Flow) (manifest : Manifest) :
    (Transaction.submit f.submission f.message manifest).Spares Question.handsOver 1 := by
  rw [Transaction.submit_eq]
  refine ⟨Nat.zero_le 1, fun start _ => ⟨Nat.le_refl 1, fun reply => ?_⟩⟩
  exact (Transaction.settle_quiet f.submission start reply).silent.spares

theorem perform_spares (f : Flow) (op : Operation) :
    (f.perform op).Spares Question.handsOver 1 := by
  rw [perform_eq]
  refine (f.prepare_quiet op).silent.spares_bind fun r => ?_
  rcases r with fault | ⟨account, manifest⟩
  · trivial
  · exact Spares.bind (n := 0) (f.submit_spares manifest) fun _ => trivial

/-- **A run hands the wallet at most one transaction.** -/
theorem run_spares (f : Flow) (op : Operation) :
    (f.run op).run.Spares Question.handsOver 1 := by
  rw [run_eq]
  intro before
  dsimp only
  split
  · trivial
  · refine Spares.bind (m := 1) (n := 0) ?_ fun _ => trivial
    rw [runAccepted_eq]
    exact fun _ => (f.perform_spares op).bind fun acted => (f.conclude_silent op acted).spares

end Flow

end LedgerClient
