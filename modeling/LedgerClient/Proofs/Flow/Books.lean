/-
  What preparing and submitting add to the counters.

  * `Metrics.shows` are the counters of submissions, `gains` what deeds add to them;
  * `Recorded deeds asking built sent returned`: the deeds, and the question that is being asked,
    are recorded as so many manifests and requests to the wallet, and this returned outcome;
  * `Uncounted` work adds nothing to the counters and hands nothing to the wallet;
  * `prepare_recorded` and `submit_recorded` say what is recorded of the parts of a run at any
    point in them.
-/
import LedgerClient.Proofs.Flow.Parts
import LedgerClient.Proofs.Job.Path
import Mathlib.Algebra.Ring.Nat

namespace LedgerClient

open Job

/-! ## Counters -/

/-- The counters of what happens to submissions. -/
inductive Counter
  | built
  | submitted
  | succeeded
  | failed
  | timed

/-- What a counter shows. -/
def Metrics.shows (m : Metrics) : Counter → Nat
  | .built => m.manifestsBuilt
  | .submitted => m.submitted
  | .succeeded => m.succeeded
  | .failed => m.failed
  | .timed => m.submissionLatency.count

namespace Books

/-- What was done with the desk and outside of it. -/
abbrev Deeds := List (Deed Desk Question.Answer)

/-- What a deed adds to a counter. -/
def gain (deed : Deed Desk Question.Answer) (i : Counter) : Nat :=
  (deed.apply Desk.fresh).metrics.shows i

def gains (deeds : Deeds) (i : Counter) : Nat :=
  (deeds.map (gain · i)).sum

variable {i : Counter} {deeds deeds' : Deeds}

@[simp] theorem gains_nil : gains [] i = 0 := rfl

@[simp] theorem gains_cons (deed : Deed Desk Question.Answer) :
    gains (deed :: deeds) i = gain deed i + gains deeds i := by
  simp [gains]

@[simp] theorem gains_append : gains (deeds ++ deeds') i = gains deeds i + gains deeds' i := by
  simp [gains]

theorem gains_mono (h : deeds <:+: deeds') : gains deeds i ≤ gains deeds' i := by
  obtain ⟨before, after, rfl⟩ := h
  simp only [gains_append]
  omega

theorem gains_eq_zero_iff : gains deeds i = 0 ↔ ∀ deed ∈ deeds, gain deed i = 0 := by
  induction deeds with
  | nil => simp
  | cons deed deeds ih => simp [ih]

theorem gain_of_metrics {deed : Deed Desk Question.Answer}
    (h : ∀ d, (deed.apply d).metrics = d.metrics) : gain deed i = 0 := by
  rw [gain, h]
  cases i <;> rfl

@[simp] theorem gain_heard (e : Answered Question.Answer) : gain (.heard e) i = 0 :=
  gain_of_metrics fun _ => rfl

theorem gain_outcome (success : Bool) (seconds : Float) :
    gain (.changed (Desk.record fun m => m.outcome success seconds)) .succeeded = success.toNat ∧
      gain (.changed (Desk.record fun m => m.outcome success seconds)) .failed =
        (!success).toNat := by
  cases success <;> exact ⟨rfl, rfl⟩

/-- A change that adds as much to every counter as it does on a fresh desk. -/
def Adds (change : Desk → Desk) : Prop :=
  ∀ d i, (change d).metrics.shows i = d.metrics.shows i + gain (.changed change) i

theorem adds_of_metrics {change : Desk → Desk} (h : ∀ d, (change d).metrics = d.metrics) :
    Adds change := by
  intro d i
  have hgain : gain (.changed change) i = 0 := gain_of_metrics h
  rw [h, hgain, Nat.add_zero]

theorem adds_manifestBuilt : Adds (Desk.record Metrics.manifestBuilt) := by
  intro d i
  cases i <;> rfl

theorem adds_submission : Adds (Desk.record Metrics.submission) := by
  intro d i
  cases i <;> rfl

theorem adds_outcome (success : Bool) (seconds : Float) :
    Adds (Desk.record fun m => m.outcome success seconds) := by
  intro d i
  cases i <;> cases success <;> rfl

/-! ## Records -/

/-- So many manifests and requests are on record, and this outcome, if one was returned. -/
structure Recorded (deeds : Deeds) (asking : List Question) (built sent : Nat)
    (returned : Option Outcome) : Prop where
  built : gains deeds .built = built
  submitted : gains deeds .submitted = sent
  sent : (Question.requests (askedIn deeds ++ asking)).length = sent
  succeeded : gains deeds .succeeded = (returned.any Outcome.isSuccess).toNat
  failed : gains deeds .failed = (returned.any fun outcome => !outcome.isSuccess).toNat
  timed : gains deeds .timed = returned.isSome.toNat

theorem Recorded.append {asking : List Question} {b b' n n' : Nat} {r r' : Option Outcome}
    (h : Recorded deeds [] b n r) (h' : Recorded deeds' asking b' n' r')
    (hr : r = none ∨ r' = none) :
    Recorded (deeds ++ deeds') asking (b + b') (n + n') (r.or r') := by
  have hsent := h.sent
  have hsent' := h'.sent
  refine ⟨?_, ?_, ?_, ?_, ?_, ?_⟩
  · rw [gains_append, h.built, h'.built]
  · rw [gains_append, h.submitted, h'.submitted]
  · simp only [askedIn, Question.requests, List.flatMap_append, List.filterMap_append,
      List.length_append, List.append_nil] at hsent hsent' ⊢
    omega
  · rw [gains_append, h.succeeded, h'.succeeded]
    obtain rfl | rfl := hr <;> simp
  · rw [gains_append, h.failed, h'.failed]
    obtain rfl | rfl := hr <;> simp
  · rw [gains_append, h.timed, h'.timed]
    obtain rfl | rfl := hr <;> simp

end Books

/-! ## Uncounted work -/

/-- Work that leaves the metrics alone, and hands no transaction to the wallet. -/
def Work.Uncounted {α : Type} (work : Work α) : Prop :=
  work.Within (fun change => ∀ d, (change d).metrics = d.metrics) fun q => q.request? = none

namespace Work.Uncounted

variable {α : Type} {work rest : Work α} {deeds : Books.Deeds}

theorem requests_asking (h : work.Uncounted) : Question.requests work.asking = [] := by
  cases work with
  | done a => rfl
  | act change next => rfl
  | ask q next => simp [Question.requests, asking, h.1]

theorem recorded (h : work.Uncounted) (hpath : Path work deeds rest) :
    Books.Recorded deeds rest.asking 0 0 none := by
  obtain ⟨hdeeds, hrest⟩ := Within.path h hpath
  have hgains : ∀ i, Books.gains deeds i = 0 := by
    intro i
    refine Books.gains_eq_zero_iff.2 fun deed hdeed => Books.gain_of_metrics ?_
    have hwithin := hdeeds deed hdeed
    cases deed with
    | changed change => exact hwithin
    | heard e => exact fun _ => rfl
  have hasked : Question.requests (askedIn deeds) = [] := by
    rw [Question.requests, List.filterMap_eq_nil_iff]
    simp only [askedIn, List.mem_flatMap, forall_exists_index, and_imp]
    intro q deed hdeed hq
    have hwithin := hdeeds deed hdeed
    cases deed with
    | changed change => cases hq
    | heard e =>
      obtain rfl := List.mem_singleton.1 hq
      exact hwithin
  have hsent : Question.requests (askedIn deeds ++ rest.asking) = [] := by
    rw [Question.requests, List.filterMap_append, List.append_eq_nil_iff]
    exact ⟨hasked, requests_asking hrest⟩
  exact ⟨hgains _, hgains _, congrArg List.length hsent, hgains _, hgains _, hgains _⟩

end Work.Uncounted

namespace Connection

theorem resolve_uncounted (stored : Bool) : Work.Uncounted (resolve stored).run := by
  refine (resolve_within stored).mono ?_ fun _ hq => by cases hq <;> rfl
  rintro _ ⟨next, rfl⟩ d
  rfl

end Connection

namespace Transaction

theorem awaitReceipt_uncounted (s : Submission) (intentHash : String) :
    Work.Uncounted (awaitReceipt s intentHash).run :=
  (awaitReceipt_within s intentHash).mono (fun _ hc => hc) fun _ hq => by cases hq <;> rfl

end Transaction

namespace Flow

theorem conclude_uncounted (f : Flow) (op : Operation) (acted : Option AccountRef × Outcome) :
    Work.Uncounted (f.conclude op acted) :=
  (f.conclude_within op acted).mono (fun _ hc d => by cases hc <;> rfl) fun _ hq => by
    cases hq <;> rfl

/-! ## Preparing -/

theorem prepare_eq (f : Flow) (op : Operation) :
    (f.prepare op).run = (Connection.resolve f.stored).run.bind (proceed fun account =>
      match op.build account f.addresses with
      | .ok manifest => .act (Desk.record Metrics.manifestBuilt) fun _ =>
        .done (.ok (account, manifest))
      | .error fault => .done (.error fault)) := by
  rw [prepare, run_bind_eq]
  congr 1
  congr 1
  funext account
  rw [run_bind_eq, run_liftM_eq]
  cases op.build account f.addresses <;> rfl

/-- A manifest is recorded where the preparing has come to one. -/
theorem prepare_recorded {f : Flow} {op : Operation} {deeds : Books.Deeds}
    {rest : Work (Except Fault (AccountRef × Manifest))} (h : Path (f.prepare op).run deeds rest) :
    (Books.Recorded deeds rest.asking 0 0 none ∧ ∀ made, rest ≠ .done (.ok made)) ∨
      ∃ made, rest = .done (.ok made) ∧ Books.Recorded deeds [] 1 0 none := by
  have hresolve := Connection.resolve_uncounted f.stored
  rw [prepare_eq] at h
  obtain ⟨part, hpart, hleft, rfl⟩ | ⟨r, first, later, rfl, hfirst, hlater⟩ := h.bind_cases
  · refine .inl ⟨?_, fun made => bind_ne_done hleft _ _⟩
    rw [asking_bind hleft]
    exact hresolve.recorded hpart
  have hresolved : Books.Recorded first [] 0 0 none := hresolve.recorded hfirst
  have hnothing : Books.Recorded (first ++ []) [] 0 0 none := by
    rwa [List.append_nil]
  rcases r with fault | account
  · obtain ⟨rfl, rfl⟩ := Path.done_iff.1 hlater
    exact .inl ⟨hnothing, fun _ hmade => by cases hmade⟩
  rw [proceed] at hlater
  cases hbuild : op.build account f.addresses with
  | error fault =>
    rw [hbuild] at hlater
    obtain ⟨rfl, rfl⟩ := Path.done_iff.1 hlater
    exact .inl ⟨hnothing, fun _ hmade => by cases hmade⟩
  | ok manifest =>
    rw [hbuild] at hlater
    obtain ⟨rfl, rfl⟩ | ⟨_, last, rfl, hdone⟩ := Path.act_cases hlater
    · exact .inl ⟨hnothing, fun _ hmade => by cases hmade⟩
    · obtain ⟨rfl, rfl⟩ := Path.done_iff.1 hdone
      refine .inr ⟨_, rfl, ?_⟩
      have hbuilt : Books.Recorded [.changed (Desk.record Metrics.manifestBuilt)] [] 1 0 none :=
        ⟨rfl, rfl, rfl, rfl, rfl, rfl⟩
      exact hresolved.append hbuilt (.inl rfl)

/-! ## Submitting -/

end Flow

namespace Transaction

theorem settle_recorded {s : Submission} {start : Nat} {reply : Except Fault String}
    {deeds : Books.Deeds} {rest : Work Outcome} (h : Path (settle s start reply) deeds rest) :
    (rest.isDone = false ∧ Books.Recorded deeds rest.asking 0 0 none) ∨
      ∃ outcome, rest = .done outcome ∧ Books.Recorded deeds [] 0 0 (some outcome) := by
  have hreceipt : Work.Uncounted (proceed (fun hash => (awaitReceipt s hash).run) reply) :=
    Within.proceed (fun hash => awaitReceipt_uncounted s hash) reply
  obtain ⟨part, hpart, hleft, rfl⟩ | ⟨outcome, first, later, rfl, hfirst, hlater⟩ := h.bind_cases
  · refine .inl ⟨isDone_bind hleft _, ?_⟩
    rw [asking_bind hleft]
    exact hreceipt.recorded hpart
  have hawaited : Books.Recorded first [] 0 0 none := hreceipt.recorded hfirst
  obtain ⟨rfl, rfl⟩ | ⟨stop, later, rfl, hstop⟩ := Path.ask_cases hlater
  · exact .inl ⟨rfl, hawaited.append ⟨rfl, rfl, rfl, rfl, rfl, rfl⟩ (.inl rfl)⟩
  obtain ⟨rfl, rfl⟩ | ⟨_, later, rfl, hdone⟩ := Path.act_cases hstop
  · exact .inl ⟨rfl, hawaited.append ⟨rfl, rfl, rfl, rfl, rfl, rfl⟩ (.inl rfl)⟩
  obtain ⟨rfl, rfl⟩ := Path.done_iff.1 hdone
  obtain ⟨hsucceeded, hfailed⟩ := Books.gain_outcome (Outcome.isSuccess outcome)
    (Metrics.secondsBetween start stop)
  have hrecorded : Books.Recorded [.heard ⟨.now, stop⟩, .changed (Desk.record fun m =>
      m.outcome (Outcome.isSuccess outcome) (Metrics.secondsBetween start stop))] [] 0 0
      (some outcome) :=
    ⟨rfl, rfl, rfl, by simpa using hsucceeded, by simpa using hfailed, rfl⟩
  exact .inr ⟨outcome, rfl, hawaited.append hrecorded (.inl rfl)⟩

/-- An outcome is recorded where the submission has returned it. -/
theorem submit_recorded {s : Submission} {message : Option String} {manifest : Manifest}
    {deeds : Books.Deeds} {rest : Work Outcome} (h : Path (submit s message manifest) deeds rest) :
    (∃ sent, rest.isDone = false ∧ Books.Recorded deeds rest.asking 0 sent none) ∨
      ∃ outcome, rest = .done outcome ∧ Books.Recorded deeds [] 0 1 (some outcome) := by
  rw [submit_eq] at h
  obtain ⟨rfl, rfl⟩ | ⟨start, later, rfl, hstart⟩ := Path.ask_cases h
  · exact .inl ⟨0, rfl, rfl, rfl, rfl, rfl, rfl, rfl⟩
  obtain ⟨rfl, rfl⟩ | ⟨_, later, rfl, hcounted⟩ := Path.act_cases hstart
  · exact .inl ⟨0, rfl, rfl, rfl, rfl, rfl, rfl, rfl⟩
  -- from here on the request is counted, and it is with the wallet, though it has no answer yet
  obtain ⟨rfl, rfl⟩ | ⟨reply, later, rfl, hsettle⟩ := Path.ask_cases hcounted
  · exact .inl ⟨1, rfl, rfl, rfl, rfl, rfl, rfl, rfl⟩
  have hsent : Books.Recorded [.heard ⟨.now, start⟩, .changed (Desk.record Metrics.submission),
      .heard ⟨.sign (requestFor message manifest), reply⟩] [] 0 1 none :=
    ⟨rfl, rfl, rfl, rfl, rfl, rfl⟩
  obtain ⟨hleft, hrecorded⟩ | ⟨outcome, rfl, hrecorded⟩ := settle_recorded hsettle
  · exact .inl ⟨1, hleft, hsent.append hrecorded (.inl rfl)⟩
  · exact .inr ⟨outcome, rfl, hsent.append hrecorded (.inl rfl)⟩

end Transaction

end LedgerClient
