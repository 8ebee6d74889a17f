/-
  The conduct of jobs: what they change and ask, step by step.

  * `Job.Step`: one step of a job, with the questions that are asked in it;
  * `job.Within changes questions`: every change that the job may make is one of `changes`,
    and every question that it may ask one of `questions`;
  * `job.Spares p n`: the job asks at most `n` questions with the property `p`;
  * `job.Upholds view during after v`: where nobody else touches the view of the state, which
    is `v` now, it satisfies `during` until the job has ended, and then `after`. Other jobs
    may change what is out of view between any two steps;
  * each of the four is composed along `Job.bind`, and kept by a step.
-/
import LedgerClient.Job

namespace LedgerClient.Job

variable {σ Q : Type} {A : Q → Type} {α β γ ε : Type}

/-! ## Steps -/

/-- One step of a job: a change of the state, or a question with its answer. -/
inductive Step : Job σ Q A α → σ → List Q → Job σ Q A α → σ → Prop
  | act {change : σ → σ} {next : σ → Job σ Q A α} {s : σ} :
      Step (.act change next) s [] (next s) (change s)
  | ask {q : Q} {next : A q → Job σ Q A α} {s : σ} (a : A q) :
      Step (.ask q next) s [q] (next a) s

theorem step_act_iff {change : σ → σ} {next : σ → Job σ Q A α} {s s' : σ} {qs : List Q}
    {job : Job σ Q A α} :
    Step (.act change next) s qs job s' ↔ (qs, job, s') = ([], next s, change s) := by
  constructor
  · rintro ⟨⟩
    rfl
  · rintro ⟨⟩
    exact .act

/-- Whether nothing is left to do. -/
def isDone : Job σ Q A α → Bool
  | done _ => true
  | _ => false

/-- The question that a job has put and waits for the answer to, if there is one. -/
def asking : Job σ Q A α → List Q
  | ask q _ => [q]
  | _ => []

theorem isDone_bind {job : Job σ Q A α} (h : job.isDone = false) (f : α → Job σ Q A β) :
    (job.bind f).isDone = false := by
  cases job with
  | done a => cases h
  | act change next => rfl
  | ask q next => rfl

theorem bind_ne_done {job : Job σ Q A α} (h : job.isDone = false) (f : α → Job σ Q A β) (b : β) :
    job.bind f ≠ done b := by
  intro hb
  have hdone := isDone_bind h f
  rw [hb] at hdone
  cases hdone

theorem asking_bind {job : Job σ Q A α} (h : job.isDone = false) (f : α → Job σ Q A β) :
    (job.bind f).asking = job.asking := by
  cases job with
  | done a => cases h
  | act change next => rfl
  | ask q next => rfl

/-! ## Attempts -/

instance : LawfulMonad (Job σ Q A) :=
  .mk' _ bind_done (fun _ _ => rfl) bind_assoc

/-- Goes on with a result, where there is one. -/
def proceed (f : α → Job σ Q A (Except ε β)) : Except ε α → Job σ Q A (Except ε β)
  | .ok a => f a
  | .error e => done (.error e)

theorem run_bind_eq (x : ExceptT ε (Job σ Q A) α) (f : α → ExceptT ε (Job σ Q A) β) :
    (x >>= f).run = x.run.bind (proceed fun a => (f a).run) := by
  rw [ExceptT.run_bind, bind_eq]
  congr 1
  funext r
  cases r <;> rfl

theorem run_liftM_eq (r : Except ε α) : (liftM r : ExceptT ε (Job σ Q A) α).run = done r := by
  cases r <;> rfl

/-! ## What may be changed and asked -/

/-- Every change is one of `changes`, and every question one of `questions`. -/
def Within (changes : (σ → σ) → Prop) (questions : Q → Prop) : Job σ Q A α → Prop
  | done _ => True
  | act change next => changes change ∧ ∀ s, (next s).Within changes questions
  | ask q next => questions q ∧ ∀ a, (next a).Within changes questions

namespace Within

variable {changes changes' : (σ → σ) → Prop} {questions questions' : Q → Prop}

theorem bind {job : Job σ Q A α} {f : α → Job σ Q A β} (hjob : job.Within changes questions)
    (hf : ∀ a, (f a).Within changes questions) : (job.bind f).Within changes questions := by
  induction job with
  | done a => exact hf a
  | act change next ih => exact ⟨hjob.1, fun s => ih s (hjob.2 s)⟩
  | ask q next ih => exact ⟨hjob.1, fun a => ih a (hjob.2 a)⟩

theorem mono {job : Job σ Q A α} (hjob : job.Within changes questions)
    (hc : ∀ c, changes c → changes' c) (hq : ∀ q, questions q → questions' q) :
    job.Within changes' questions' := by
  induction job with
  | done a => trivial
  | act change next ih => exact ⟨hc _ hjob.1, fun s => ih s (hjob.2 s)⟩
  | ask q next ih => exact ⟨hq _ hjob.1, fun a => ih a (hjob.2 a)⟩

theorem proceed {f : α → Job σ Q A (Except ε β)} (hf : ∀ a, (f a).Within changes questions) :
    ∀ r, (proceed f r).Within changes questions
  | .ok a => hf a
  | .error _ => trivial

theorem request {q : Q} (hq : questions q) :
    (Job.request q : Job σ Q A (A q)).Within changes questions :=
  ⟨hq, fun _ => trivial⟩

theorem except (r : Except ε α) :
    (liftM r : ExceptT ε (Job σ Q A) α).run.Within changes questions := by
  rw [run_liftM_eq]
  trivial

/-- An attempt stays within what its parts stay within. -/
theorem run_bind {x : ExceptT ε (Job σ Q A) α} {f : α → ExceptT ε (Job σ Q A) β}
    (hx : x.run.Within changes questions) (hf : ∀ a, (f a).run.Within changes questions) :
    (x >>= f).run.Within changes questions := by
  rw [run_bind_eq]
  exact hx.bind (Within.proceed hf)

end Within

/-! ## How often something may be asked -/

/-- At most `n` questions with the property `p` are asked. -/
def Spares (p : Q → Bool) : Nat → Job σ Q A α → Prop
  | _, done _ => True
  | n, act _ next => ∀ s, (next s).Spares p n
  | n, ask q next => (p q).toNat ≤ n ∧ ∀ a, (next a).Spares p (n - (p q).toNat)

theorem countP_single (p : Q → Bool) (q : Q) : [q].countP p = (p q).toNat := by
  cases hq : p q <;> simp [hq]

namespace Spares

variable {p : Q → Bool} {m n : Nat}

theorem mono {job : Job σ Q A α} (hjob : job.Spares p m) (hmn : m ≤ n) : job.Spares p n := by
  induction job generalizing m n with
  | done a => trivial
  | act change next ih => exact fun s => ih s (hjob s) hmn
  | ask q next ih =>
    exact ⟨Nat.le_trans hjob.1 hmn, fun a => ih a (hjob.2 a) (Nat.sub_le_sub_right hmn _)⟩

theorem bind {job : Job σ Q A α} {f : α → Job σ Q A β} (hjob : job.Spares p m)
    (hf : ∀ a, (f a).Spares p n) : (job.bind f).Spares p (m + n) := by
  induction job generalizing m with
  | done a => exact (hf a).mono (Nat.le_add_left n m)
  | act change next ih => exact fun s => ih s (hjob s)
  | ask q next ih =>
    refine ⟨Nat.le_trans hjob.1 (Nat.le_add_right m n), fun a => ?_⟩
    rw [Nat.sub_add_comm hjob.1]
    exact ih a (hjob.2 a)

theorem of_within {changes : (σ → σ) → Prop} {job : Job σ Q A α}
    (hjob : job.Within changes fun q => p q = false) : job.Spares p 0 := by
  induction job with
  | done a => trivial
  | act change next ih => exact fun s => ih s (hjob.2 s)
  | ask q next ih =>
    rw [Spares, hjob.1]
    exact ⟨Nat.le_refl _, fun a => ih a (hjob.2 a)⟩

/-- What is asked in a step is taken off what may be asked. -/
theorem step {job job' : Job σ Q A α} {s s' : σ} {qs : List Q} (hjob : job.Spares p n)
    (hstep : Step job s qs job' s') : ∃ k, job'.Spares p k ∧ qs.countP p + k = n := by
  cases hstep with
  | act => exact ⟨n, hjob s, Nat.zero_add n⟩
  | @ask q next s a =>
    refine ⟨n - (p q).toNat, hjob.2 a, ?_⟩
    rw [countP_single, Nat.add_sub_cancel' hjob.1]

/-- The question that is being asked counts as well. -/
theorem asking {job : Job σ Q A α} (hjob : job.Spares p n) : job.asking.countP p ≤ n := by
  cases job with
  | done a => exact Nat.zero_le n
  | act change next => exact Nat.zero_le n
  | ask q next =>
    rw [Job.asking, countP_single]
    exact hjob.1

end Spares

/-! ## What holds on the way -/

/-- Where nobody else touches the view of the state, which is `v` now: it satisfies `during`
    as long as something is left to do, and the result and it satisfy `after` in the end. -/
def Upholds (view : σ → γ) (during : γ → Prop) (after : α → γ → Prop) : Job σ Q A α → γ → Prop
  | done a, v => after a v
  | act change next, v =>
    during v ∧ ∀ s, view s = v → (next s).Upholds view during after (view (change s))
  | ask _ next, v => during v ∧ ∀ a, (next a).Upholds view during after v

namespace Upholds

variable {view : σ → γ} {during : γ → Prop} {after : α → γ → Prop} {after' : β → γ → Prop} {v : γ}

theorem bind {job : Job σ Q A α} {f : α → Job σ Q A β} (hjob : job.Upholds view during after v)
    (hf : ∀ a v, after a v → (f a).Upholds view during after' v) :
    (job.bind f).Upholds view during after' v := by
  induction job generalizing v with
  | done a => exact hf a v hjob
  | act change next ih => exact ⟨hjob.1, fun s hs => ih s (hjob.2 s hs)⟩
  | ask q next ih => exact ⟨hjob.1, fun a => ih a (hjob.2 a)⟩

/-- A job that keeps the view upholds whatever is true of it. -/
theorem of_within {questions : Q → Prop} {job : Job σ Q A α}
    (hjob : job.Within (fun change => ∀ s, view (change s) = view s) questions) (hv : during v) :
    job.Upholds view during (fun _ v' => v' = v) v := by
  induction job with
  | done a => rfl
  | act change next ih =>
    refine ⟨hv, fun s hs => ?_⟩
    rw [hjob.1 s, hs]
    exact ih s (hjob.2 s)
  | ask q next ih => exact ⟨hv, fun a => ih a (hjob.2 a)⟩

theorem step {job job' : Job σ Q A α} {s s' : σ} {qs : List Q}
    (hjob : job.Upholds view during after (view s)) (hstep : Step job s qs job' s') :
    job'.Upholds view during after (view s') := by
  cases hstep with
  | act => exact hjob.2 s rfl
  | ask a => exact hjob.2 a

/-- Either something is left to do, or the end is reached. -/
theorem during_or_after {job : Job σ Q A α} (hjob : job.Upholds view during after v) :
    job.isDone = false ∧ during v ∨ ∃ a, job = done a ∧ after a v := by
  cases job with
  | done a => exact Or.inr ⟨a, rfl, hjob⟩
  | act change next => exact Or.inl ⟨rfl, hjob.1⟩
  | ask q next => exact Or.inl ⟨rfl, hjob.1⟩

end Upholds

end LedgerClient.Job
