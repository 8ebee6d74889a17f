/-
  Jobs done in company.

  * `Answered A`: a question with the answer to it;
  * `Course view job s talk a s'`: the job, begun in the state `s`, comes to the result `a` and
    leaves the state `s'`, with the questions and answers of `talk`. Between any two steps others
    may change what is out of view;
  * `Course.bind_iff`: the course of a job and of what follows it, one after the other;
  * `Within.course`: what every change keeps is kept on the whole course;
  * `exists_course`: what a job comes to alone is one of its courses.
-/
import LedgerClient.Proofs.Job.Record

namespace LedgerClient.Job

variable {σ Q : Type} {A : Q → Type} {α β γ ε : Type}

/-- A question and the answer to it. -/
structure Answered (A : Q → Type) where
  question : Q
  answer : A question

/-- What a job may come to where others may change what is out of view, at any time. -/
inductive Course (view : σ → γ) : Job σ Q A α → σ → List (Answered A) → α → σ → Prop
  | done {a : α} {s s' : σ} (h : view s' = view s) : Course view (done a) s [] a s'
  | act {change : σ → σ} {next : σ → Job σ Q A α} {s s₁ s' : σ} {talk : List (Answered A)} {a : α}
      (h : view s₁ = view s) (hrest : Course view (next s₁) (change s₁) talk a s') :
      Course view (act change next) s talk a s'
  | ask {q : Q} {next : A q → Job σ Q A α} {s s' : σ} {talk : List (Answered A)} {a : α}
      (answer : A q) (hrest : Course view (next answer) s talk a s') :
      Course view (ask q next) s (⟨q, answer⟩ :: talk) a s'

namespace Course

variable {view : σ → γ} {job : Job σ Q A α} {s s₁ s' : σ} {talk : List (Answered A)} {a : α}

theorem done_iff {b : α} :
    Course view (Job.done b : Job σ Q A α) s talk a s' ↔
      talk = [] ∧ a = b ∧ view s' = view s := by
  constructor
  · rintro ⟨h⟩
    exact ⟨rfl, rfl, h⟩
  · rintro ⟨rfl, rfl, h⟩
    exact .done h

theorem act_iff {change : σ → σ} {next : σ → Job σ Q A α} :
    Course view (Job.act change next) s talk a s' ↔
      ∃ s₁, view s₁ = view s ∧ Course view (next s₁) (change s₁) talk a s' := by
  constructor
  · intro h
    cases h with
    | act h hrest => exact ⟨_, h, hrest⟩
  · rintro ⟨s₁, h, hrest⟩
    exact .act h hrest

theorem ask_iff {q : Q} {next : A q → Job σ Q A α} :
    Course view (Job.ask q next) s talk a s' ↔
      ∃ answer later, talk = ⟨q, answer⟩ :: later ∧ Course view (next answer) s later a s' := by
  constructor
  · intro h
    cases h with
    | ask answer hrest => exact ⟨answer, _, rfl, hrest⟩
  · rintro ⟨answer, later, rfl, hrest⟩
    exact .ask answer hrest

/-- The others may come first. -/
theorem of_view (h : Course view job s₁ talk a s') (hs : view s₁ = view s) :
    Course view job s talk a s' := by
  induction h with
  | done h => exact .done (h.trans hs)
  | act h hrest _ => exact .act (h.trans hs) hrest
  | ask answer _ ih => exact .ask answer (ih hs)

/-- The others may come last. -/
theorem to_view (h : Course view job s talk a s₁) (hs : view s' = view s₁) :
    Course view job s talk a s' := by
  induction h with
  | done h => exact .done (hs.trans h)
  | act h _ ih => exact .act h (ih hs)
  | ask answer _ ih => exact .ask answer (ih hs)

/-- A change comes at once where its effect on the view depends on the view only. -/
theorem act_iff_of_congr {change : σ → σ}
    (h : ∀ s s₁, view s₁ = view s → view (change s₁) = view (change s)) :
    Course view (Job.act change fun _ => job) s talk a s' ↔
      Course view job (change s) talk a s' := by
  rw [act_iff]
  constructor
  · rintro ⟨s₁, hs, hrest⟩
    exact hrest.of_view (h s s₁ hs)
  · exact fun hrest => ⟨s, rfl, hrest⟩

/-- **A job runs its course before what follows it.** -/
theorem bind_iff {f : α → Job σ Q A β} {b : β} :
    Course view (job.bind f) s talk b s' ↔ ∃ first a s₁ later, talk = first ++ later ∧
      Course view job s first a s₁ ∧ Course view (f a) s₁ later b s' := by
  constructor
  · intro h
    induction job generalizing s talk with
    | done a => exact ⟨[], a, s, talk, rfl, .done rfl, h⟩
    | act change next ih =>
      obtain ⟨s₁, hs, hrest⟩ := act_iff.1 h
      obtain ⟨first, a, s₂, later, rfl, hjob, hf⟩ := ih _ hrest
      exact ⟨first, a, s₂, later, rfl, .act hs hjob, hf⟩
    | ask q next ih =>
      obtain ⟨answer, talk, rfl, hrest⟩ := ask_iff.1 h
      obtain ⟨first, a, s₂, later, rfl, hjob, hf⟩ := ih _ hrest
      exact ⟨⟨q, answer⟩ :: first, a, s₂, later, rfl, .ask answer hjob, hf⟩
  · rintro ⟨first, a, s₁, later, rfl, hjob, hf⟩
    induction hjob with
    | done h => exact hf.of_view h
    | act h _ ih => exact .act h (ih hf)
    | ask answer _ ih => exact .ask answer (ih hf)

theorem bind_done_iff {g : α → β} {b : β} :
    Course view (job.bind fun a => Job.done (g a)) s talk b s' ↔
      ∃ a, Course view job s talk a s' ∧ b = g a := by
  rw [bind_iff]
  constructor
  · rintro ⟨first, a, s₁, later, rfl, hjob, hdone⟩
    obtain ⟨rfl, rfl, hs⟩ := done_iff.1 hdone
    rw [List.append_nil]
    exact ⟨a, hjob.to_view hs, rfl⟩
  · rintro ⟨a, hjob, rfl⟩
    exact ⟨talk, a, s', [], (List.append_nil _).symm, hjob, .done rfl⟩

/-- An attempt that ends with a result has had results all the way. -/
theorem run_bind_ok {x : ExceptT ε (Job σ Q A) α} {f : α → ExceptT ε (Job σ Q A) β} {b : β}
    (h : Course view (x >>= f).run s talk (.ok b) s') :
    ∃ first a s₁ later, talk = first ++ later ∧ Course view x.run s first (.ok a) s₁ ∧
      Course view (f a).run s₁ later (.ok b) s' := by
  rw [run_bind_eq, bind_iff] at h
  obtain ⟨first, r, s₁, later, rfl, hx, hf⟩ := h
  cases r with
  | ok a => exact ⟨first, a, s₁, later, rfl, hx, hf⟩
  | error e => cases hf

end Course

/-- Every view that the changes keep is kept on the way, and only allowed questions are asked. -/
theorem Within.course {view : σ → γ} {questions : Q → Prop} {job : Job σ Q A α}
    (hjob : job.Within (fun change => ∀ s, view (change s) = view s) questions) {s s' : σ}
    {talk : List (Answered A)} {a : α} (h : Course view job s talk a s') :
    view s' = view s ∧ ∀ e ∈ talk, questions e.question := by
  induction h with
  | done h => exact ⟨h, nofun⟩
  | act h _ ih =>
    obtain ⟨hview, htalk⟩ := ih (hjob.2 _)
    exact ⟨hview.trans ((hjob.1 _).trans h), htalk⟩
  | ask answer _ ih =>
    obtain ⟨hview, htalk⟩ := ih (hjob.2 _)
    exact ⟨hview, List.forall_mem_cons.2 ⟨hjob.1, htalk⟩⟩

/-- **What a job comes to alone is one of its courses.** -/
theorem exists_course {ω : Type} {answer : (q : Q) → StateM ω (A q)} (view : σ → γ)
    (job : Job σ Q A α) (s : σ) (w : ω) :
    let e := job.ending answer s w
    ∃ talk : List (Answered A), talk.map Answered.question = e.asked ∧
      Course view job s talk e.result e.state := by
  induction job generalizing s w with
  | done a => exact ⟨[], rfl, .done rfl⟩
  | act change next ih =>
    obtain ⟨talk, hasked, hcourse⟩ := ih s (change s) w
    exact ⟨talk, hasked, .act rfl hcourse⟩
  | ask q next ih =>
    obtain ⟨talk, hasked, hcourse⟩ := ih (answer q w).1 s (answer q w).2
    rw [ending_ask]
    exact ⟨⟨q, (answer q w).1⟩ :: talk, congrArg (q :: ·) hasked, .ask _ hcourse⟩

end LedgerClient.Job
