/-
  The accounts of submissions.

  * `Did part result deeds`: a part of the work was done in the course of the deeds, with this
    result; so a manifest was `Prepared`, or an outcome was `Returned`;
  * `Docket` is a desk with any number of runs, preparings, submissions and awaited receipts, each
    at its own point; `Docket.Step` lets one of them take a step, at any time and in any order. One
    that is given up takes no more steps;
  * `Docket.Sound` is kept by every step: the counters show what the deeds of all cases add;
  * `Docket.submissions_balance`: where no submission is in flight, the counters agree with each
    other and with what was done.
-/
import LedgerClient.Proofs.Flow.Books
import Mathlib.Algebra.BigOperators.Group.List.Basic

namespace LedgerClient

open Job

/-! ## What was done -/

namespace Books

/-- In the course of the deeds, a part of the work was done, with this result. -/
def Did {α : Type} (part : Work α) (result : α) (deeds : Deeds) : Prop :=
  ∃ own, own <:+: deeds ∧ Path part own (.done result)

def Prepared (deeds : Deeds) : Prop :=
  ∃ (f : Flow) (op : Operation) (made : AccountRef × Manifest),
    Did (f.prepare op).run (.ok made) deeds

def Returned (outcome : Outcome) (deeds : Deeds) : Prop :=
  ∃ s message manifest, Did (Transaction.submit s message manifest) outcome deeds

variable {deeds deeds' : Deeds} {asking : List Question} {b n : Nat} {r : Option Outcome}

theorem Did.mono {α : Type} {part : Work α} {result : α} (h : Did part result deeds)
    (hd : deeds <:+: deeds') : Did part result deeds' := by
  obtain ⟨own, hown, hpath⟩ := h
  exact ⟨own, hown.trans hd, hpath⟩

theorem Prepared.mono (h : Prepared deeds) (hd : deeds <:+: deeds') : Prepared deeds' := by
  obtain ⟨f, op, made, hdid⟩ := h
  exact ⟨f, op, made, hdid.mono hd⟩

theorem Returned.mono {outcome : Outcome} (h : Returned outcome deeds) (hd : deeds <:+: deeds') :
    Returned outcome deeds' := by
  obtain ⟨s, message, manifest, hdid⟩ := h
  exact ⟨s, message, manifest, hdid.mono hd⟩

theorem Prepared.one_le_gains (h : Prepared deeds) : 1 ≤ gains deeds .built := by
  obtain ⟨f, op, made, own, hown, hpath⟩ := h
  obtain ⟨-, hne⟩ | ⟨_, -, hrecorded⟩ := Flow.prepare_recorded hpath
  · exact absurd rfl (hne made)
  · rw [← hrecorded.built]
    exact gains_mono hown

theorem Returned.gains {outcome : Outcome} (h : Returned outcome deeds) :
    (Outcome.isSuccess outcome).toNat ≤ gains deeds .succeeded ∧ 1 ≤ gains deeds .timed := by
  obtain ⟨s, message, manifest, own, hown, hpath⟩ := h
  obtain ⟨_, hleft, -⟩ | ⟨_, heq, hrecorded⟩ := Transaction.submit_recorded hpath
  · cases hleft
  cases heq
  have hsucceeded := hrecorded.succeeded
  have htimed := hrecorded.timed
  simp only [Option.any_some, Option.isSome_some, Bool.toNat_true] at hsucceeded htimed
  rw [← hsucceeded, ← htimed]
  exact ⟨gains_mono hown, gains_mono hown⟩

/-- What is on record was done. -/
structure Accounted (deeds : Deeds) (asking : List Question) (b n : Nat) (r : Option Outcome) : Prop
    extends Recorded deeds asking b n r where
  prepared : b = 0 ∨ b = 1 ∧ Prepared deeds
  returned : ∀ outcome, r = some outcome → n = 1 ∧ Returned outcome deeds

/-- What is on record goes with this outcome in the end. -/
inductive Ends : Nat → Option Outcome → Outcome → Prop
  | returned (n : Nat) (outcome : Outcome) : Ends n (some outcome) outcome
  | unsent (fault : Fault) : Ends 0 none (.error fault)

theorem Recorded.accounted (h : Recorded deeds asking 0 n none) : Accounted deeds asking 0 n none :=
  ⟨h, .inl rfl, nofun⟩

theorem Accounted.after {first : Deeds} (h : Accounted deeds asking b n r)
    (hfirst : Recorded first [] 0 0 none) : Accounted (first ++ deeds) asking b n r := by
  have hsuffix : deeds <:+: first ++ deeds := (List.suffix_append first deeds).isInfix
  have hrecorded := hfirst.append h.toRecorded (.inl rfl)
  rw [Nat.zero_add, Nat.zero_add, Option.none_or] at hrecorded
  refine ⟨hrecorded, h.prepared.imp_right fun ⟨hb, hp⟩ => ⟨hb, hp.mono hsuffix⟩, ?_⟩
  intro outcome hr
  obtain ⟨hn, hreturned⟩ := h.returned outcome hr
  exact ⟨hn, hreturned.mono hsuffix⟩

end Books

/-! ## Runs -/

namespace Flow

open Books

variable {f : Flow} {op : Operation} {deeds : Deeds} {rest : Work (Except Fault Report)}

/-- What is left of a run after its outcome. -/
def finish (f : Flow) (op : Operation) (acted : Option AccountRef × Outcome) :
    Work (Except Fault Report) :=
  (f.conclude op acted).bind fun report => .done (.ok report)

/-- What is left of a run after its preparing. -/
def goOn (f : Flow) (op : Operation) :
    Except Fault (AccountRef × Manifest) → Work (Except Fault Report)
  | .ok (account, manifest) =>
    (Transaction.submit f.submission f.message manifest).bind fun outcome =>
      f.finish op (some account, outcome)
  | .error fault => f.finish op (none, .error fault)

theorem accepted_eq (f : Flow) (op : Operation) :
    f.accepted op = .act (Desk.setPhase .submitting) fun _ =>
      (f.prepare op).run.bind (f.goOn op) := by
  rw [accepted, runAccepted_eq, Job.bind, perform_eq, Job.bind_assoc, Job.bind_assoc]
  congr 1
  funext _
  congr 1
  funext r
  rcases r with fault | ⟨account, manifest⟩
  · rfl
  · rw [Job.bind_assoc]
    rfl

theorem finish_uncounted (f : Flow) (op : Operation) (acted : Option AccountRef × Outcome) :
    Work.Uncounted (f.finish op acted) :=
  Within.bind (f.conclude_uncounted op acted) fun _ => trivial

theorem finish_done {acted : Option AccountRef × Outcome} {result : Except Fault Report}
    (h : Path (f.finish op acted) deeds (.done result)) :
    ∃ report, result = .ok report ∧ report.outcome = acted.2 := by
  obtain ⟨part, -, hleft, heq⟩ | ⟨report, first, _, -, hconclude, hdone⟩ := h.bind_cases
  · exact absurd heq.symm (bind_ne_done hleft _ _)
  refine ⟨report, Job.done.inj (Path.done_iff.1 hdone).2, ?_⟩
  obtain ⟨part, -, hleft, heq⟩ | ⟨presented, _, _, -, -, hlower⟩ := hconclude.bind_cases
  · exact absurd heq.symm (bind_ne_done hleft _ _)
  obtain ⟨-, heq⟩ | ⟨_, _, -, hreport⟩ := Path.act_cases hlower
  · cases heq
  · exact congrArg Report.outcome (Job.done.inj (Path.done_iff.1 hreport).2)

/-- Where the work is done, there is a report, and its outcome goes with what is on record. -/
def Reports (rest : Work (Except Fault Report)) (n : Nat) (r : Option Outcome) : Prop :=
  ∀ result, rest = .done result → ∃ report, result = .ok report ∧ Ends n r report.outcome

/-- A run from its submission on. -/
theorem submit_accounted {acted : Option AccountRef} {manifest : Manifest}
    (h : Path ((Transaction.submit f.submission f.message manifest).bind fun outcome =>
      f.finish op (acted, outcome)) deeds rest) :
    ∃ n r, Accounted deeds rest.asking 0 n r ∧ Reports rest n r := by
  obtain ⟨part, hpart, hleft, rfl⟩ | ⟨outcome, first, later, rfl, hfirst, hlater⟩ := h.bind_cases
  · rw [asking_bind hleft]
    obtain ⟨n, -, hrecorded⟩ | ⟨outcome, rfl, -⟩ := Transaction.submit_recorded hpart
    · exact ⟨n, none, hrecorded.accounted, fun _ hdone => absurd hdone (bind_ne_done hleft _ _)⟩
    · cases hleft
  · have hfinished := (f.finish_uncounted op (acted, outcome)).recorded hlater
    obtain ⟨_, hleft, -⟩ | ⟨_, heq, hrecorded⟩ := Transaction.submit_recorded hfirst
    · cases hleft
    cases heq
    have hprefix : first <:+: first ++ later := (List.prefix_append first later).isInfix
    refine ⟨1, some outcome, ⟨hrecorded.append hfinished (.inr rfl), .inl rfl, ?_⟩, ?_⟩
    · rintro _ ⟨⟩
      exact ⟨rfl, f.submission, f.message, manifest, first, hprefix, hfirst⟩
    · rintro result rfl
      obtain ⟨report, rfl, houtcome⟩ := finish_done hlater
      exact ⟨report, rfl, houtcome ▸ .returned 1 outcome⟩

/-- A run that is not refused, from its preparing on. -/
theorem prepare_accounted (h : Path ((f.prepare op).run.bind (f.goOn op)) deeds rest) :
    ∃ b n r, Accounted deeds rest.asking b n r ∧ (n = 0 ∧ r = none ∨ Prepared deeds) ∧
      Reports rest n r := by
  obtain ⟨part, hpart, hleft, rfl⟩ | ⟨made, first, later, rfl, hfirst, hlater⟩ := h.bind_cases
  · refine ⟨0, 0, none, ?_, .inl ⟨rfl, rfl⟩, fun _ hdone => absurd hdone (bind_ne_done hleft _ _)⟩
    rw [asking_bind hleft]
    obtain ⟨hrecorded, -⟩ | ⟨_, rfl, -⟩ := prepare_recorded hpart
    · exact hrecorded.accounted
    · cases hleft
  rcases made with fault | made
  · -- nothing is submitted, and what is presented is the fault
    obtain ⟨hrecorded, -⟩ | ⟨_, heq, -⟩ := prepare_recorded hfirst
    · have hfinished := (f.finish_uncounted op (none, .error fault)).recorded hlater
      refine ⟨0, 0, none, hfinished.accounted.after hrecorded, .inl ⟨rfl, rfl⟩, ?_⟩
      rintro result rfl
      obtain ⟨report, rfl, houtcome⟩ := finish_done hlater
      exact ⟨report, rfl, houtcome ▸ .unsent fault⟩
    · cases heq
  · obtain ⟨-, hne⟩ | ⟨_, -, hrecorded⟩ := prepare_recorded hfirst
    · exact absurd rfl (hne made)
    have hprepared : Prepared (first ++ later) :=
      ⟨f, op, made, first, (List.prefix_append first later).isInfix, hfirst⟩
    obtain ⟨n, r, haccounted, hreports⟩ := submit_accounted hlater
    have happend := hrecorded.append haccounted.toRecorded (.inl rfl)
    rw [Nat.zero_add, Option.none_or] at happend
    refine ⟨1, n, r, ⟨happend, .inr ⟨rfl, hprepared⟩, ?_⟩, .inr hprepared, hreports⟩
    intro outcome hr
    obtain ⟨hn, hreturned⟩ := haccounted.returned outcome hr
    exact ⟨hn, hreturned.mono (List.suffix_append first later).isInfix⟩

/-- **What is on record of a run was done**, at any point in it. -/
theorem run_accounted (h : Path (f.run op).run deeds rest) :
    ∃ b n r, Accounted deeds rest.asking b n r ∧
      (n = 0 ∧ r = none ∨ Prepared deeds ∧ ∀ fault, rest ≠ .done (.error fault)) ∧
      ∀ report, rest = .done (.ok report) → Ends n r report.outcome := by
  have hnone : Accounted [.changed (Desk.setBusy true)] [] 0 0 none :=
    Recorded.accounted ⟨rfl, rfl, rfl, rfl, rfl, rfl⟩
  rw [run_eq] at h
  obtain ⟨rfl, rfl⟩ | ⟨d, later, rfl, hlater⟩ := Path.act_cases h
  · exact ⟨0, 0, none, Recorded.accounted ⟨rfl, rfl, rfl, rfl, rfl, rfl⟩, .inl ⟨rfl, rfl⟩,
      fun _ hdone => by cases hdone⟩
  split at hlater
  · obtain ⟨rfl, rfl⟩ := Path.done_iff.1 hlater
    exact ⟨0, 0, none, hnone, .inl ⟨rfl, rfl⟩, fun _ hdone => by cases hdone⟩
  rw [accepted_eq] at hlater
  obtain ⟨rfl, rfl⟩ | ⟨_, later, rfl, hprepare⟩ := Path.act_cases hlater
  · exact ⟨0, 0, none, hnone, .inl ⟨rfl, rfl⟩, fun _ hdone => by cases hdone⟩
  have hbegun : Recorded [.changed (Desk.setBusy true), .changed (Desk.setPhase .submitting)] []
      0 0 none := ⟨rfl, rfl, rfl, rfl, rfl, rfl⟩
  obtain ⟨b, n, r, haccounted, hdone, hreports⟩ := prepare_accounted hprepare
  refine ⟨b, n, r, haccounted.after hbegun, ?_, fun report hreport => ?_⟩
  · refine hdone.imp_right fun hprepared => ⟨?_, fun fault hfault => ?_⟩
    · exact hprepared.mono (List.suffix_append [_, _] later).isInfix
    · obtain ⟨_, heq, -⟩ := hreports _ hfault
      cases heq
  · obtain ⟨_, heq, hends⟩ := hreports _ hreport
    cases heq
    exact hends

end Flow

namespace Transaction

theorem submit_adds (s : Submission) (message : Option String) (manifest : Manifest) :
    (submit s message manifest).Within Books.Adds fun _ => True := by
  rw [submit_eq]
  refine ⟨trivial, fun start => ⟨Books.adds_submission, fun _ => ⟨trivial, fun reply => ?_⟩⟩⟩
  refine (settle_within s start reply).mono ?_ fun _ _ => trivial
  rintro _ ⟨success, seconds, rfl⟩
  exact Books.adds_outcome success seconds

end Transaction

namespace Flow

theorem prepare_adds (f : Flow) (op : Operation) :
    (f.prepare op).run.Within Books.Adds fun _ => True := by
  refine (f.prepare_within op).mono (fun change hc => ?_) fun _ _ => trivial
  cases hc with
  | account next => exact Books.adds_of_metrics fun _ => rfl
  | built => exact Books.adds_manifestBuilt

theorem run_adds (f : Flow) (op : Operation) : (f.run op).run.Within Books.Adds fun _ => True := by
  have hconclude : ∀ acted, (f.conclude op acted).Within Books.Adds fun _ => True := by
    refine fun acted => (f.conclude_within op acted).mono (fun change hc => ?_) fun _ _ => trivial
    exact Books.adds_of_metrics fun d => by cases hc <;> rfl
  rw [run_eq]
  refine ⟨Books.adds_of_metrics fun _ => rfl, fun before => ?_⟩
  dsimp only
  split
  · trivial
  rw [accepted_eq]
  refine ⟨Books.adds_of_metrics fun _ => rfl, fun _ => .bind (f.prepare_adds op) fun r => ?_⟩
  rcases r with fault | ⟨account, manifest⟩
  · exact .bind (hconclude _) fun _ => trivial
  · exact .bind (Transaction.submit_adds _ _ _) fun outcome => .bind (hconclude _) fun _ => trivial

end Flow

/-! ## Cases -/

/-- What the client can be asked to do about submissions. -/
inductive Service
  | run (f : Flow) (op : Operation)
  | prepare (f : Flow) (op : Operation)
  | submit (s : Submission) (message : Option String) (manifest : Manifest)
  | await (s : Submission) (intentHash : String)

namespace Service

@[reducible]
def Result : Service → Type
  | run _ _ => Except Fault Report
  | prepare _ _ => Except Fault (AccountRef × Manifest)
  | submit _ _ _ | await _ _ => Outcome

def work : (v : Service) → Work v.Result
  | run f op => (f.run op).run
  | prepare f op => (f.prepare op).run
  | submit s message manifest => Transaction.submit s message manifest
  | await s intentHash => (Transaction.awaitReceipt s intentHash).run

/-- Whatever a service changes adds as much to the counters on any desk. -/
theorem work_adds (v : Service) : v.work.Within Books.Adds fun _ => True := by
  cases v with
  | run f op => exact f.run_adds op
  | prepare f op => exact f.prepare_adds op
  | submit s message manifest => exact Transaction.submit_adds s message manifest
  | await s intentHash =>
    exact (Transaction.awaitReceipt_within s intentHash).mono (fun _ hc => hc) fun _ _ => trivial

end Service

/-- A service that was asked for. -/
structure Case where
  service : Service
  /-- What was done for it, the first deed first. -/
  deeds : Books.Deeds
  /-- What is left to do. -/
  rest : Work service.Result

namespace Case

open Books

/-- A case before its first step. -/
def fresh (v : Service) : Case :=
  ⟨v, [], v.work⟩

/-- The transactions that the wallet was handed, answered or not. -/
def sent (c : Case) : List TransactionRequest :=
  Question.requests (askedIn c.deeds ++ c.rest.asking)

/-- The wallet was handed a transaction, and the submission has not returned. -/
def InFlight (c : Case) : Prop :=
  c.sent ≠ [] ∧ ∀ outcome, ¬ Returned outcome c.deeds

/-- The submission has returned the receipt of a success. -/
def Succeeded (c : Case) : Prop :=
  ∃ receipt, Returned (.ok receipt) c.deeds ∧ receipt.status = .success

/-- Cases without a submission: a run that was refused or has no manifest, or a receipt that is
    awaited by itself, or a manifest that is prepared by itself. -/
inductive Unsubmitted : Case → Prop
  | refused (f : Flow) (op : Operation) (deeds : Deeds) (fault : Fault) :
      Unsubmitted ⟨.run f op, deeds, .done (.error fault)⟩
  | unprepared {f : Flow} {op : Operation} {deeds : Deeds} {rest : Work (Except Fault Report)}
      (h : ¬ Prepared deeds) : Unsubmitted ⟨.run f op, deeds, rest⟩
  | prepare (f : Flow) (op : Operation) (deeds : Deeds)
      (rest : Work (Except Fault (AccountRef × Manifest))) :
      Unsubmitted ⟨.prepare f op, deeds, rest⟩
  | await (s : Submission) (intentHash : String) (deeds : Deeds) (rest : Work Outcome) :
      Unsubmitted ⟨.await s intentHash, deeds, rest⟩

/-- Cases that are done, with the outcome that is given back: in the report of a run, or by a
    submission. -/
inductive Ended : Case → Outcome → Prop
  | run (f : Flow) (op : Operation) (deeds : Deeds) (report : Report) :
      Ended ⟨.run f op, deeds, .done (.ok report)⟩ report.outcome
  | submit (s : Submission) (message : Option String) (manifest : Manifest) (deeds : Deeds)
      (outcome : Outcome) : Ended ⟨.submit s message manifest, deeds, .done outcome⟩ outcome

/-- The case has come to where it is. -/
def Sound (c : Case) : Prop :=
  Path c.service.work c.deeds c.rest

variable {c : Case}

theorem Sound.accounted (h : c.Sound) : ∃ b n r, Accounted c.deeds c.rest.asking b n r ∧
    (c.Unsubmitted → n = 0 ∧ r = none) ∧ ∀ outcome, c.Ended outcome → Ends n r outcome := by
  obtain ⟨service, deeds, rest⟩ := c
  cases service with
  | run f op =>
    obtain ⟨b, n, r, haccounted, hdone, hends⟩ := Flow.run_accounted h
    refine ⟨b, n, r, haccounted, fun hc => ?_, fun outcome hended => ?_⟩
    · obtain hnone | ⟨hprepared, hne⟩ := hdone
      · exact hnone
      · cases hc with
        | refused _ _ _ fault => exact absurd rfl (hne fault)
        | unprepared h => exact absurd hprepared h
    · cases hended with
      | run _ _ _ report => exact hends report rfl
  | prepare f op =>
    obtain ⟨hrecorded, -⟩ | ⟨made, rfl, hrecorded⟩ := Flow.prepare_recorded h
    · exact ⟨0, 0, none, hrecorded.accounted, fun _ => ⟨rfl, rfl⟩, fun _ hc => by cases hc⟩
    · have hprepared : Prepared deeds := ⟨f, op, made, deeds, List.infix_rfl, h⟩
      exact ⟨1, 0, none, ⟨hrecorded, .inr ⟨rfl, hprepared⟩, fun _ hr => by cases hr⟩,
        fun _ => ⟨rfl, rfl⟩, fun _ hc => by cases hc⟩
  | submit s message manifest =>
    obtain ⟨n, hleft, hrecorded⟩ | ⟨outcome, rfl, hrecorded⟩ := Transaction.submit_recorded h
    · refine ⟨0, n, none, hrecorded.accounted, fun hc => ?_, fun _ hended => ?_⟩
      · cases hc
      · cases hended
        cases hleft
    · have hreturned : Returned outcome deeds :=
        ⟨s, message, manifest, deeds, List.infix_rfl, h⟩
      refine ⟨0, 1, some outcome, ⟨hrecorded, .inl rfl, ?_⟩, fun hc => ?_, fun _ hended => ?_⟩
      · rintro _ ⟨⟩
        exact ⟨rfl, hreturned⟩
      · cases hc
      · cases hended
        exact .returned 1 outcome
  | await s intentHash =>
    have hrecorded := (Transaction.awaitReceipt_uncounted s intentHash).recorded h
    exact ⟨0, 0, none, hrecorded.accounted, fun _ => ⟨rfl, rfl⟩, fun _ hc => by cases hc⟩

/-! ### Counting -/

theorem Sound.adds (h : c.Sound) : ∀ deed ∈ c.deeds, ∀ d i,
    (deed.apply d).metrics.shows i = d.metrics.shows i + gain deed i := by
  intro deed hdeed
  have hwithin := (Within.path c.service.work_adds h).1 deed hdeed
  cases deed with
  | changed change => exact hwithin
  | heard e => exact fun d i => (by rw [gain_heard]; rfl)

theorem Sound.submitted (h : c.Sound) : gains c.deeds .submitted = c.sent.length := by
  obtain ⟨b, n, r, haccounted, -⟩ := h.accounted
  rw [haccounted.submitted, sent, haccounted.sent]

open Classical in
theorem Sound.built (h : c.Sound) :
    gains c.deeds .built = if Prepared c.deeds then 1 else 0 := by
  obtain ⟨b, n, r, haccounted, -⟩ := h.accounted
  have hbuilt := haccounted.built
  split
  · -- the deeds of the preparing are among those of the case, so one manifest is on record
    rename_i hprepared
    have hone := hprepared.one_le_gains
    obtain rfl | ⟨rfl, -⟩ := haccounted.prepared
    · omega
    · exact hbuilt
  · rename_i hunprepared
    obtain rfl | ⟨-, hprepared⟩ := haccounted.prepared
    · exact hbuilt
    · exact absurd hprepared hunprepared

theorem Succeeded.one_le_gains (h : c.Succeeded) : 1 ≤ gains c.deeds .succeeded := by
  obtain ⟨receipt, hreturned, hstatus⟩ := h
  have hone := hreturned.gains.1
  rwa [Outcome.isSuccess_iff.2 ⟨receipt, rfl, hstatus⟩] at hone

open Classical in
theorem Sound.succeeded (h : c.Sound) :
    gains c.deeds .succeeded = if c.Succeeded then 1 else 0 := by
  obtain ⟨b, n, r, haccounted, -⟩ := h.accounted
  have hgains := haccounted.succeeded
  split
  · rename_i hsucceeded
    have hone := hsucceeded.one_le_gains
    rw [hgains] at hone ⊢
    exact Nat.le_antisymm (Bool.toNat_le _) hone
  · rename_i hfailed
    cases r with
    | none => exact hgains
    | some outcome =>
      cases hsuccess : Outcome.isSuccess outcome with
      | false => simpa [hsuccess] using hgains
      | true =>
        obtain ⟨receipt, rfl, hstatus⟩ := Outcome.isSuccess_iff.1 hsuccess
        exact absurd ⟨receipt, (haccounted.returned _ rfl).2, hstatus⟩ hfailed

/-- Where the submission is not in flight, it has one outcome for one request. -/
theorem Sound.settled (h : c.Sound) (hc : ¬ c.InFlight) :
    gains c.deeds .submitted = gains c.deeds .succeeded + gains c.deeds .failed ∧
      gains c.deeds .submitted = gains c.deeds .timed := by
  obtain ⟨b, n, r, haccounted, -⟩ := h.accounted
  have hsubmitted := haccounted.submitted
  rw [haccounted.succeeded, haccounted.failed, haccounted.timed]
  cases r with
  | none =>
    -- nothing was handed over, or else an outcome would have been recorded
    have hsent : c.sent = [] := by
      refine Classical.byContradiction fun hsent => hc ⟨hsent, fun outcome hreturned => ?_⟩
      have htimed := hreturned.gains.2
      rw [haccounted.timed] at htimed
      exact absurd htimed (by simp)
    have hnone : gains c.deeds .submitted = 0 := by
      rw [h.submitted, hsent]
      rfl
    exact ⟨hnone, hnone⟩
  | some outcome =>
    obtain ⟨rfl, -⟩ := haccounted.returned outcome rfl
    rw [hsubmitted]
    cases hsuccess : Outcome.isSuccess outcome <;> simp [hsuccess]

/-- A case that has given an outcome back is not in flight, and has succeeded where that is a
    success. -/
theorem Sound.ended {outcome : Outcome} (h : c.Sound) (hc : c.Ended outcome) :
    ¬ c.InFlight ∧ (c.Succeeded ↔ Outcome.isSuccess outcome = true) := by
  obtain ⟨b, n, r, haccounted, -, hends⟩ := h.accounted
  have hgains := haccounted.succeeded
  -- at most one outcome is on record, so a success that was returned is the one on record
  have hfrom : c.Succeeded → r.any Outcome.isSuccess = true := by
    intro hsucceeded
    have hone := hsucceeded.one_le_gains
    rw [hgains] at hone
    exact Bool.toNat_eq_one.1 (Nat.le_antisymm (Bool.toNat_le _) hone)
  cases hends outcome hc with
  | returned n outcome =>
    have hreturned := (haccounted.returned outcome rfl).2
    refine ⟨fun hflight => hflight.2 outcome hreturned, hfrom, fun hsuccess => ?_⟩
    obtain ⟨receipt, rfl, hstatus⟩ := Outcome.isSuccess_iff.1 hsuccess
    exact ⟨receipt, hreturned, hstatus⟩
  | unsent fault =>
    have hsent : c.sent = [] := List.length_eq_zero_iff.1 haccounted.sent
    refine ⟨fun hflight => hflight.1 hsent, fun hsucceeded => ?_, fun hsuccess => ?_⟩
    · cases hfrom hsucceeded
    · cases hsuccess

theorem Sound.of_unsubmitted (h : c.Sound) (hc : c.Unsubmitted) :
    gains c.deeds .submitted = 0 ∧ gains c.deeds .succeeded = 0 ∧ gains c.deeds .failed = 0 := by
  obtain ⟨b, n, r, haccounted, hnone, -⟩ := h.accounted
  obtain ⟨rfl, rfl⟩ := hnone hc
  exact ⟨haccounted.submitted, haccounted.succeeded, haccounted.failed⟩

end Case

/-! ## Dockets -/

/-- A desk, and the cases on it. -/
structure Docket where
  desk : Desk
  cases : List Case

namespace Docket

open Books

/-- One step of a docket. -/
inductive Step : Docket → Docket → Prop
  /-- a service is asked for -/
  | enter (d : Docket) (v : Service) : Step d ⟨d.desk, d.cases ++ [.fresh v]⟩
  /-- a case takes a step -/
  | move {desk : Desk} {before after : List Case} {c : Case} {deed : Deed Desk Question.Answer}
      {rest : Work c.service.Result} (h : Does c.rest desk deed rest) :
      Step ⟨desk, before ++ c :: after⟩
        ⟨deed.apply desk, before ++ ⟨c.service, c.deeds ++ [deed], rest⟩ :: after⟩
  /-- something else happens on the desk that leaves the counters alone -/
  | aside {desk desk' : Desk} {cases : List Case}
      (h : ∀ i, desk'.metrics.shows i = desk.metrics.shows i) : Step ⟨desk, cases⟩ ⟨desk', cases⟩

/-- The dockets that may come to be. -/
inductive Reachable : Docket → Prop
  | start : Reachable ⟨.fresh, []⟩
  | step {d d' : Docket} : Reachable d → Step d d' → Reachable d'

/-- What every step of a docket keeps. -/
structure Sound (d : Docket) : Prop where
  cases : ∀ c ∈ d.cases, c.Sound
  counters : ∀ i, d.desk.metrics.shows i = (d.cases.map fun c => gains c.deeds i).sum

namespace Sound

theorem enter {d : Docket} (h : d.Sound) (v : Service) :
    Docket.Sound ⟨d.desk, d.cases ++ [.fresh v]⟩ := by
  constructor
  · intro c hc
    obtain hc | hc := List.mem_append.1 hc
    · exact h.cases c hc
    · obtain rfl := List.mem_singleton.1 hc
      exact .nil _
  · intro i
    simp [h.counters i, Case.fresh]

theorem move {desk : Desk} {before after : List Case} {c : Case} {deed : Deed Desk Question.Answer}
    {rest : Work c.service.Result} (h : Docket.Sound ⟨desk, before ++ c :: after⟩)
    (hdoes : Does c.rest desk deed rest) :
    Docket.Sound
      ⟨deed.apply desk, before ++ ⟨c.service, c.deeds ++ [deed], rest⟩ :: after⟩ := by
  have hcase : c.Sound := h.cases c (by simp)
  have hmoved : Case.Sound ⟨c.service, c.deeds ++ [deed], rest⟩ := Path.snoc hcase hdoes
  have hadds : ∀ i, (deed.apply desk).metrics.shows i = desk.metrics.shows i + gain deed i :=
    fun i => hmoved.adds deed (List.mem_append_right _ (List.mem_singleton.2 rfl)) desk i
  constructor
  · intro o ho
    obtain ho | ho := List.mem_append.1 ho
    · exact h.cases o (List.mem_append_left _ ho)
    obtain rfl | ho := List.mem_cons.1 ho
    · exact hmoved
    · exact h.cases o (List.mem_append_right _ (List.mem_cons_of_mem _ ho))
  · intro i
    have hcounters := h.counters i
    simp only [List.map_append, List.map_cons, List.sum_append, List.sum_cons] at hcounters ⊢
    rw [hadds, hcounters, gains_append, gains_cons, gains_nil]
    omega

/-- **A step keeps the counters sound.** -/
theorem step {d d' : Docket} (h : d.Sound) (hstep : Step d d') : d'.Sound := by
  cases hstep with
  | enter _ v => exact h.enter v
  | move hdoes => exact h.move hdoes
  | aside hdesk => exact ⟨h.cases, fun i => (hdesk i).trans (h.counters i)⟩

end Sound

theorem Reachable.move {desk : Desk} {before after : List Case} {v : Service} {deeds : Deeds}
    {deed : Deed Desk Question.Answer} {job rest : Work v.Result}
    (h : Reachable ⟨desk, before ++ ⟨v, deeds, job⟩ :: after⟩) (hdoes : Does job desk deed rest) :
    Reachable ⟨deed.apply desk, before ++ ⟨v, deeds ++ [deed], rest⟩ :: after⟩ :=
  h.step (.move hdoes)

/-- **Every docket that may come to be is sound.** -/
theorem Reachable.sound {d : Docket} (h : Reachable d) : d.Sound := by
  induction h with
  | start =>
    refine ⟨fun c hc => ?_, fun i => ?_⟩
    · cases hc
    · cases i <;> rfl
  | step _ hstep ih => exact ih.step hstep

/-- What every case adds, in all, where every case adds it if it has the property. -/
theorem sum_eq_countP {cases : List Case} {i : Counter} (p : Case → Prop) [DecidablePred p]
    (h : ∀ c ∈ cases, gains c.deeds i = if p c then 1 else 0) :
    (cases.map fun c => gains c.deeds i).sum = cases.countP fun c => p c := by
  induction cases with
  | nil => rfl
  | cons c cases ih =>
    obtain ⟨hc, hcases⟩ := List.forall_mem_cons.1 h
    rw [List.map_cons, List.sum_cons, ih hcases, List.countP_cons, hc, Nat.add_comm]
    simp

open Classical in
/-- **Submission accounting balances.** However the steps of runs, preparings, submissions and
    awaited receipts follow each other, and whatever they are answered: where no submission is in
    flight, as many were counted as succeeded and failed, and as were timed. As many are counted
    as the wallet was handed, the successes are the submissions that returned the receipt of one,
    and the manifests those that were prepared. A case that has given an outcome back is not in
    flight, and has succeeded where that is a success. What is not submitted leaves the counters
    of submissions alone. -/
theorem submissions_balance {d : Docket} (h : Reachable d) :
    ((∀ c ∈ d.cases, ¬ c.InFlight) →
      d.desk.metrics.submitted = d.desk.metrics.succeeded + d.desk.metrics.failed ∧
      d.desk.metrics.submitted = d.desk.metrics.submissionLatency.count) ∧
    d.desk.metrics.submitted = (d.cases.map fun c => c.sent.length).sum ∧
    d.desk.metrics.succeeded = (d.cases.countP fun c => c.Succeeded) ∧
    d.desk.metrics.manifestsBuilt = (d.cases.countP fun c => Prepared c.deeds) ∧
    (∀ c ∈ d.cases, ∀ outcome, c.Ended outcome →
      ¬ c.InFlight ∧ (c.Succeeded ↔ Outcome.isSuccess outcome = true)) ∧
    ∀ c ∈ d.cases, c.Unsubmitted → c.sent = [] ∧ ∀ deed ∈ c.deeds, ∀ desk,
      (deed.apply desk).metrics.submitted = desk.metrics.submitted ∧
      (deed.apply desk).metrics.succeeded = desk.metrics.succeeded ∧
      (deed.apply desk).metrics.failed = desk.metrics.failed := by
  have hsound := h.sound
  have hsubmitted := hsound.counters .submitted
  refine ⟨fun hsettled => ⟨?_, ?_⟩, ?_, ?_, ?_, ?_, fun c hc hnone => ?_⟩
  · rw [List.map_congr_left fun c hc => ((hsound.cases c hc).settled (hsettled c hc)).1,
      List.sum_map_add, ← hsound.counters, ← hsound.counters] at hsubmitted
    exact hsubmitted
  · rw [List.map_congr_left fun c hc => ((hsound.cases c hc).settled (hsettled c hc)).2,
      ← hsound.counters] at hsubmitted
    exact hsubmitted
  · rwa [List.map_congr_left fun c hc => (hsound.cases c hc).submitted] at hsubmitted
  · exact (hsound.counters .succeeded).trans
      (sum_eq_countP _ fun c hc => (hsound.cases c hc).succeeded)
  · exact (hsound.counters .built).trans (sum_eq_countP _ fun c hc => (hsound.cases c hc).built)
  · exact fun c hc outcome => (hsound.cases c hc).ended
  · have hcase := hsound.cases c hc
    obtain ⟨hsubmitted, hsucceeded, hfailed⟩ := hcase.of_unsubmitted hnone
    have hkept : ∀ i, gains c.deeds i = 0 → ∀ deed ∈ c.deeds, ∀ desk : Desk,
        (deed.apply desk).metrics.shows i = desk.metrics.shows i := by
      intro i hi deed hdeed desk
      rw [hcase.adds deed hdeed, gains_eq_zero_iff.1 hi deed hdeed, Nat.add_zero]
    rw [hcase.submitted, List.length_eq_zero_iff] at hsubmitted
    refine ⟨hsubmitted, fun deed hdeed desk => ⟨?_, ?_, ?_⟩⟩
    · exact hkept .submitted (by rw [hcase.submitted, hsubmitted]; rfl) deed hdeed desk
    · exact hkept .succeeded hsucceeded deed hdeed desk
    · exact hkept .failed hfailed deed hdeed desk

/-- Also with a submission that the wallet has refused, beside a receipt that is awaited. -/
theorem submissions_balance_refused :
    let deeds : Deeds :=
      [.heard ⟨.now, (0 : Nat)⟩, .changed (Desk.record Metrics.submission),
       .heard ⟨.sign (Transaction.requestFor none []), .error .userRejected⟩,
       .heard ⟨.now, (5 : Nat)⟩,
       .changed (Desk.record fun m => m.outcome false (Metrics.secondsBetween 0 5))]
    let refused : Case := ⟨.submit .standard none [], deeds, .done (.error .userRejected)⟩
    let d : Docket :=
      ⟨deeds.foldl (fun desk deed => deed.apply desk) .fresh,
       [refused, Case.fresh (.await .standard "txid_1")]⟩
    Reachable d ∧ (∀ c ∈ d.cases, ¬ c.InFlight) ∧
      d.desk.metrics.submitted = d.desk.metrics.succeeded + d.desk.metrics.failed ∧
      d.desk.metrics.failed = 1 ∧ refused.sent.length = 1 := by
  intro deeds refused d
  have hfirst : Does (Transaction.submit .standard none []) Desk.fresh (.heard ⟨.now, (0 : Nat)⟩)
      (.act (Desk.record Metrics.submission) fun _ =>
        .ask (.sign (Transaction.requestFor none [])) (Transaction.settle .standard 0)) := by
    rw [Transaction.submit_eq]
    exact .ask _
  have hlast : Does (Transaction.settle .standard 0 (.error .userRejected))
      (Desk.fresh.record Metrics.submission) (.heard ⟨.now, (5 : Nat)⟩)
      (.act (Desk.record fun m => m.outcome false (Metrics.secondsBetween 0 5)) fun _ =>
        .done (.error .userRejected)) := by
    rw [Transaction.settle, proceed, Job.bind]
    exact .ask _
  have hentered : Reachable ⟨.fresh, [] ++
      ⟨.submit .standard none [], [], Transaction.submit .standard none []⟩ ::
        [Case.fresh (.await .standard "txid_1")]⟩ :=
    .step (.step .start (.enter _ (.submit .standard none []))) (.enter _ _)
  have hsigning := (hentered.move hfirst).move .act
  have hrefused := hsigning.move (.ask (.error .userRejected))
  have hstopped := hrefused.move hlast
  have hreachable : Reachable d := hstopped.move .act
  have hreturned : Returned (.error .userRejected) deeds :=
    ⟨.standard, none, [], deeds, List.infix_rfl, hreachable.sound.cases refused (by simp [d])⟩
  have hsettled : ∀ c ∈ d.cases, ¬ c.InFlight := by
    intro c hc
    obtain rfl | hc := List.mem_cons.1 hc
    · exact fun h => h.2 _ hreturned
    · obtain rfl := List.mem_singleton.1 hc
      exact fun h => h.1 rfl
  obtain ⟨hbalance, -⟩ := submissions_balance hreachable
  exact ⟨hreachable, hsettled, (hbalance hsettled).1, rfl, rfl⟩

end Docket

end LedgerClient
