/-
  Jobs done alone, with a record of what they asked.

  * `job.ending answer s w` is what `Job.run` comes to on a state, where an outside in the
    state `w` gives the answers: the result, the states that are left, and all questions
    in order;
  * `ending_bind`: a job is done before what follows it, and the questions are put together;
  * `Within.ending`: what is kept by every change is kept in the end, and only allowed
    questions are asked.
-/
import LedgerClient.Proofs.Job.Conduct
import LedgerClient.Proofs.Scan

namespace LedgerClient.Job

variable {σ Q ω : Type} {A : Q → Type} {α β γ : Type}

/-- Answers as before, and writes down the question. -/
def noting (answer : (q : Q) → StateM ω (A q)) (q : Q) : StateM (ω × List Q) (A q) := fun w =>
  let (a, world) := answer q w.1
  (a, world, w.2 ++ [q])

/-- What a job came to. -/
structure Ending (σ Q ω α : Type) where
  result : α
  state : σ
  /-- The outside. -/
  world : ω
  /-- The questions that were asked, the first one first. -/
  asked : List Q

/-- What came to pass, with questions that were asked before. -/
def Ending.after (asked : List Q) (e : Ending σ Q ω α) : Ending σ Q ω α :=
  { e with asked := asked ++ e.asked }

/-- What a job comes to where it is done alone. -/
def ending (answer : (q : Q) → StateM ω (A q)) (job : Job σ Q A α) (s : σ) (w : ω) :
    Ending σ Q ω α :=
  let ((result, state), world, asked) := job.run (noting answer) s (w, [])
  ⟨result, state, world, asked⟩

variable {answer : (q : Q) → StateM ω (A q)} {s : σ} {w : ω}

/-- The record of a job follows what was written down before. -/
theorem run_noting (job : Job σ Q A α) (s : σ) (w : ω) (asked : List Q) :
    job.run (noting answer) s (w, asked) =
      let e := job.ending answer s w
      ((e.result, e.state), e.world, asked ++ e.asked) := by
  induction job generalizing s w asked with
  | done a =>
    show ((a, s), w, asked) = ((a, s), w, asked ++ [])
    rw [List.append_nil]
  | act change next ih => exact ih s (change s) w asked
  | ask q next ih =>
    have hstep : ∀ asked, (ask q next).run (noting answer) s (w, asked) =
        (next (answer q w).1).run (noting answer) s ((answer q w).2, asked ++ [q]) := fun _ => rfl
    have hnil : (ask q next).ending answer s w =
        let e := (next (answer q w).1).ending answer s (answer q w).2
        ⟨e.result, e.state, e.world, [q] ++ e.asked⟩ := by
      rw [ending, hstep, ih]
      rfl
    rw [hstep, ih, hnil]
    simp only [List.append_assoc]

@[simp] theorem ending_done (a : α) :
    (done a : Job σ Q A α).ending answer s w = ⟨a, s, w, []⟩ := rfl

@[simp] theorem ending_act (change : σ → σ) (next : σ → Job σ Q A α) :
    (act change next).ending answer s w = (next s).ending answer (change s) w := rfl

@[simp] theorem ending_ask (q : Q) (next : A q → Job σ Q A α) :
    (ask q next).ending answer s w =
      ((next (answer q w).1).ending answer s (answer q w).2).after [q] := by
  have hstep : (ask q next).run (noting answer) s (w, []) =
      (next (answer q w).1).run (noting answer) s ((answer q w).2, [q]) := rfl
  rw [ending, hstep, run_noting]
  rfl

@[simp] theorem Ending.after_after (asked asked' : List Q) (e : Ending σ Q ω α) :
    (e.after asked').after asked = e.after (asked ++ asked') := by
  simp [Ending.after]

/-- **A job is done before what follows it.** -/
theorem ending_bind (job : Job σ Q A α) (f : α → Job σ Q A β) (s : σ) (w : ω) :
    (job.bind f).ending answer s w =
      let e := job.ending answer s w
      ((f e.result).ending answer e.state e.world).after e.asked := by
  induction job generalizing s w with
  | done a => rfl
  | act change next ih => exact ih s (change s) w
  | ask q next ih => simp [bind, ih, Ending.after]

/-- What the parts of an attempt yield, one after the other. -/
theorem yields_run_bind {ε : Type} {x : ExceptT ε (Job σ Q A) α} {f : α → ExceptT ε (Job σ Q A) β}
    {E : ε → Prop} {P : α → Prop} {R : β → Prop} (hx : Yields (x.run.ending answer s w).result E P)
    (hf : ∀ a, P a → Yields ((f a).run.ending answer (x.run.ending answer s w).state
      (x.run.ending answer s w).world).result E R) :
    Yields ((x >>= f).run.ending answer s w).result E R := by
  rw [run_bind_eq, ending_bind]
  dsimp only
  cases hresult : (x.run.ending answer s w).result with
  | ok a => exact hf a (hx.result hresult)
  | error fault => exact hx.error hresult

/-- Every view that the changes keep is kept, and only allowed questions are asked. -/
theorem Within.ending {view : σ → γ} {questions : Q → Prop} {job : Job σ Q A α}
    (hjob : job.Within (fun change => ∀ s, view (change s) = view s) questions) (s : σ) (w : ω) :
    view (job.ending answer s w).state = view s ∧
      ∀ q ∈ (job.ending answer s w).asked, questions q := by
  induction job generalizing s w with
  | done a => simp
  | act change next ih =>
    rw [ending_act, ← hjob.1 s]
    exact ih s (hjob.2 s) (change s) w
  | ask q next ih =>
    obtain ⟨hview, hasked⟩ := ih _ (hjob.2 (answer q w).1) s (answer q w).2
    rw [ending_ask]
    exact ⟨hview, List.forall_mem_cons.2 ⟨hjob.1, hasked⟩⟩

end LedgerClient.Job
