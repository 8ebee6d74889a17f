/-
  Jobs: programs that change a shared state and put questions to the outside.

  * `Job σ Q A α` is a job with result `α` on a shared state `σ`, which may ask
    the questions `q : Q` and gets answers in `A q`. Every change of the state
    and every question is one step: between two steps other jobs on the same
    state may take theirs;
  * jobs form a monad. `Job.modify`, `Job.exchange` and `Job.request` are the
    jobs of one step, `Job.delegate` answers every question by a job of its
    own, and `Job.run` runs a job alone, on answers from any monad;
  * `Job.runUntil` runs a job on answers that take time, up to a deadline.
-/

namespace LedgerClient

/-- A job with result `α`. -/
inductive Job (σ Q : Type) (A : Q → Type) (α : Type) where
  /-- There is nothing left to do. -/
  | done (result : α)
  /-- Changes the state, and goes on with what it was before. -/
  | act (change : σ → σ) (next : σ → Job σ Q A α)
  /-- Asks a question, and goes on with the answer. -/
  | ask (question : Q) (next : A question → Job σ Q A α)

namespace Job

variable {σ Q R : Type} {A : Q → Type} {B : R → Type} {α β : Type}

/-! ## Composition -/

/-- Does a job, and then the one that its result calls for. -/
def bind (job : Job σ Q A α) (f : α → Job σ Q A β) : Job σ Q A β :=
  match job with
  | done a => f a
  | act change next => act change fun s => (next s).bind f
  | ask q next => ask q fun answer => (next answer).bind f

instance : Monad (Job σ Q A) where
  pure := done
  bind := bind

@[simp] theorem pure_eq (a : α) : (pure a : Job σ Q A α) = done a := rfl

@[simp] theorem bind_eq (job : Job σ Q A α) (f : α → Job σ Q A β) : job >>= f = job.bind f := rfl

theorem bind_done (job : Job σ Q A α) : job.bind done = job := by
  induction job with
  | done a => rfl
  | act change next ih => simp [bind, ih]
  | ask q next ih => simp [bind, ih]

theorem bind_assoc {γ : Type} (job : Job σ Q A α) (f : α → Job σ Q A β) (g : β → Job σ Q A γ) :
    (job.bind f).bind g = job.bind fun a => (f a).bind g := by
  induction job with
  | done a => rfl
  | act change next ih => simp [bind, ih]
  | ask q next ih => simp [bind, ih]

/-! ## Single steps -/

/-- Changes the state. -/
def modify (change : σ → σ) : Job σ Q A Unit :=
  act change fun _ => done ()

/-- Changes the state, and returns what it was before. -/
def exchange (change : σ → σ) : Job σ Q A σ :=
  act change done

/-- Asks a question. -/
def request (q : Q) : Job σ Q A (A q) :=
  ask q done

/-! ## Delegation -/

/-- Answers every question of a job by a job with questions of another kind. -/
def delegate (t : (q : Q) → Job σ R B (A q)) : Job σ Q A α → Job σ R B α
  | done a => done a
  | act change next => act change fun s => (next s).delegate t
  | ask q next => (t q).bind fun answer => (next answer).delegate t

/-! ## Running -/

/-- Runs a job alone: the result, and the state it leaves. -/
def run {m : Type → Type} [Monad m] (answer : (q : Q) → m (A q)) : Job σ Q A α → σ → m (α × σ)
  | done a, s => pure (a, s)
  | act change next, s => (next s).run answer (change s)
  | ask q next, s => do (next (← answer q)).run answer s

variable {ω : Type}

/-- Runs a job alone until it has to wait for an answer that comes at the
    deadline or later: what is left of the job, and the state. The answer to a
    question comes at the time `due`. -/
def runUntil (due : ω → Q → Nat) (answer : (q : Q) → StateM ω (A q)) (deadline : Nat) :
    Job σ Q A α → σ → StateM ω (Job σ Q A α × σ)
  | done a, s => pure (done a, s)
  | act change next, s => (next s).runUntil due answer deadline (change s)
  | ask q next, s => fun w =>
    if due w q < deadline then
      let (a, w) := answer q w
      (next a).runUntil due answer deadline s w
    else ((ask q next, s), w)

end Job

end LedgerClient
