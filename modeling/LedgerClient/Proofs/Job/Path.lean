/-
  How far a job has come.

  * `Deed`: a change that was made, or a question that was answered;
  * `Does job s deed rest`: the first step of the job in the state `s`, and what is left of it;
  * `Path job deeds rest`: the job has done these deeds, in company, and `rest` is left of it;
  * `Path.bind_cases`: a job and what follows it are somewhere in the job, or beyond it;
  * `Within.path`: all deeds are within what the job may change and ask.
-/
import LedgerClient.Proofs.Job.Course

namespace LedgerClient.Job

variable {σ Q : Type} {A : Q → Type} {α β : Type}

/-- What is done in one step. -/
inductive Deed (σ : Type) {Q : Type} (A : Q → Type)
  | changed (change : σ → σ)
  | heard (e : Answered A)

namespace Deed

/-- The state after a deed. -/
def apply : Deed σ A → σ → σ
  | changed change, s => change s
  | heard _, s => s

/-- The question that was answered, if one was. -/
def asked : Deed σ A → List Q
  | changed _ => []
  | heard e => [e.question]

/-- A change is one of `changes`, and a question one of `questions`. -/
def Within (changes : (σ → σ) → Prop) (questions : Q → Prop) : Deed σ A → Prop
  | changed change => changes change
  | heard e => questions e.question

end Deed

/-- The questions that were answered with these deeds. -/
def askedIn (deeds : List (Deed σ A)) : List Q :=
  deeds.flatMap Deed.asked

/-- The first step of a job. -/
inductive Does : Job σ Q A α → σ → Deed σ A → Job σ Q A α → Prop
  | act {change : σ → σ} {next : σ → Job σ Q A α} {s : σ} :
      Does (act change next) s (.changed change) (next s)
  | ask {q : Q} {next : A q → Job σ Q A α} {s : σ} (answer : A q) :
      Does (ask q next) s (.heard ⟨q, answer⟩) (next answer)

/-- A job that has come to `rest`, where others may have changed the state between the steps. -/
inductive Path : Job σ Q A α → List (Deed σ A) → Job σ Q A α → Prop
  | nil (job : Job σ Q A α) : Path job [] job
  | cons {job next rest : Job σ Q A α} {s : σ} {deed : Deed σ A} {deeds : List (Deed σ A)}
      (h : Does job s deed next) (hrest : Path next deeds rest) : Path job (deed :: deeds) rest

namespace Path

variable {job rest : Job σ Q A α} {deeds : List (Deed σ A)}

theorem snoc {s : σ} {deed : Deed σ A} {mid : Job σ Q A α} (h : Path job deeds mid)
    (hd : Does mid s deed rest) : Path job (deeds ++ [deed]) rest := by
  induction h with
  | nil job => exact .cons hd (.nil _)
  | cons h _ ih => exact .cons h (ih hd)

theorem done_iff {a : α} :
    Path (done a : Job σ Q A α) deeds rest ↔ deeds = [] ∧ rest = done a := by
  constructor
  · intro h
    cases h with
    | nil => exact ⟨rfl, rfl⟩
    | cons h _ => cases h
  · rintro ⟨rfl, rfl⟩
    exact .nil _

theorem act_cases {change : σ → σ} {next : σ → Job σ Q A α}
    (h : Path (act change next) deeds rest) :
    deeds = [] ∧ rest = act change next ∨
      ∃ s later, deeds = .changed change :: later ∧ Path (next s) later rest := by
  cases h with
  | nil => exact .inl ⟨rfl, rfl⟩
  | cons h hrest =>
    cases h with
    | act => exact .inr ⟨_, _, rfl, hrest⟩

theorem ask_cases {q : Q} {next : A q → Job σ Q A α} (h : Path (ask q next) deeds rest) :
    deeds = [] ∧ rest = ask q next ∨
      ∃ answer later, deeds = .heard ⟨q, answer⟩ :: later ∧ Path (next answer) later rest := by
  cases h with
  | nil => exact .inl ⟨rfl, rfl⟩
  | cons h hrest =>
    cases h with
    | ask answer => exact .inr ⟨answer, _, rfl, hrest⟩

/-- **A job and what follows it have come to somewhere in the job, or beyond it.** -/
theorem bind_cases {job : Job σ Q A α} {f : α → Job σ Q A β} {rest : Job σ Q A β}
    (h : Path (job.bind f) deeds rest) :
    (∃ part, Path job deeds part ∧ part.isDone = false ∧ rest = part.bind f) ∨
      ∃ a first later, deeds = first ++ later ∧ Path job first (done a) ∧
        Path (f a) later rest := by
  -- in each case, the path ends here, or its first deed goes in front of what `ih` finds
  induction job generalizing deeds with
  | done a => exact .inr ⟨a, [], deeds, rfl, .nil _, h⟩
  | act change next ih =>
    cases h with
    | nil => exact .inl ⟨_, .nil _, rfl, rfl⟩
    | @cons _ _ _ s _ _ h hrest =>
      cases h with
      | act =>
        obtain ⟨part, hpart, hleft, rfl⟩ | ⟨a, first, later, rfl, hjob, hf⟩ := ih s hrest
        · exact .inl ⟨part, .cons .act hpart, hleft, rfl⟩
        · exact .inr ⟨a, _ :: first, later, rfl, .cons .act hjob, hf⟩
  | ask q next ih =>
    cases h with
    | nil => exact .inl ⟨_, .nil _, rfl, rfl⟩
    | @cons _ _ _ s _ _ h hrest =>
      cases h with
      | ask answer =>
        obtain ⟨part, hpart, hleft, rfl⟩ | ⟨a, first, later, rfl, hjob, hf⟩ := ih answer hrest
        · exact .inl ⟨part, .cons (s := s) (.ask answer) hpart, hleft, rfl⟩
        · exact .inr ⟨a, _ :: first, later, rfl, .cons (s := s) (.ask answer) hjob, hf⟩

end Path

/-- What a job has done is within what it may do, and so is what is left. -/
theorem Within.path {changes : (σ → σ) → Prop} {questions : Q → Prop} {job rest : Job σ Q A α}
    {deeds : List (Deed σ A)} (hjob : job.Within changes questions) (h : Path job deeds rest) :
    (∀ deed ∈ deeds, deed.Within changes questions) ∧ rest.Within changes questions := by
  induction h with
  | nil job => exact ⟨nofun, hjob⟩
  | cons h _ ih =>
    cases h with
    | act =>
      obtain ⟨hdeeds, hrest⟩ := ih (hjob.2 _)
      exact ⟨List.forall_mem_cons.2 ⟨hjob.1, hdeeds⟩, hrest⟩
    | ask answer =>
      obtain ⟨hdeeds, hrest⟩ := ih (hjob.2 _)
      exact ⟨List.forall_mem_cons.2 ⟨hjob.1, hdeeds⟩, hrest⟩

end LedgerClient.Job
