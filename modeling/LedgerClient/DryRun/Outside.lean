/-
  Outsides with a clock: what answers questions in a dry run.

  * an `Outside` answers every question, each at a time of its own;
  * `Outside.run` does a job in it, `Outside.overlap` two jobs that overlap.
-/
import LedgerClient.Job

namespace LedgerClient.DryRun

/-- How questions are answered in worlds `ω`, and when. -/
structure Outside (Q : Type) (A : Q → Type) (ω : Type) where
  /-- The time in a world. -/
  now : ω → Nat
  /-- The same world at another time. -/
  setNow : Nat → ω → ω
  /-- When the answer to a question comes. -/
  due : ω → Q → Nat
  /-- The answer, and the world after it. -/
  reply : ω → (q : Q) → A q × ω

namespace Outside

variable {σ Q : Type} {A : Q → Type} {ω α β : Type}

/-- Answers a question when the answer is due. -/
def answer (o : Outside Q A ω) (q : Q) : StateM ω (A q) := fun w =>
  o.reply (o.setNow (o.due w q) w) q

/-- Does a job: its result, the state it leaves and the world. -/
def run (o : Outside Q A ω) (job : Job σ Q A α) (s : σ) (w : ω) : α × σ × ω :=
  let ((result, s), w) := job.run o.answer s w
  (result, s, w)

/-- What two jobs come to that overlap. -/
structure Overlap (σ ω α β : Type) where
  first : α
  /-- The state at the moment the second one started. -/
  between : σ
  second : β
  state : σ
  world : ω

/-- Does a job and, `lag` milliseconds after its start, another one, which takes
    all its steps while the first one waits or when that has ended. -/
def overlap (o : Outside Q A ω) (lag : Nat) (first : Job σ Q A α) (second : Job σ Q A β) (s : σ)
    (w : ω) : Overlap σ ω α β :=
  let start := o.now w + lag
  let ((rest, between), w) := first.runUntil o.due o.answer start s w
  let asked := o.now w
  let (b, s, w) := o.run second between (o.setNow start w)
  let stop := o.now w
  let (a, s, w) := o.run rest s (o.setNow asked w)
  ⟨a, between, b, s, o.setNow (max stop (o.now w)) w⟩

end Outside

end LedgerClient.DryRun
