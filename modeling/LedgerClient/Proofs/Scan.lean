/-
  Scans: passes over a list that keep a state and may fail on the way.

  * `AtEach P xs` says that `P before x` holds at each member `x` of `xs`, where
    `before` are the members in front of it;
  * `Yields r E Q` says that the attempt `r` ends in an error in `E` or in a
    result in `Q`, and `Decides r P Q` that it succeeds just where `P` holds, and
    then with a result in `Q`;
  * `decides_foldlM`: a scan whose steps decide `P` decides `AtEach P`.
-/
import LedgerClient.Fault

namespace LedgerClient

variable {α β ε σ : Type}

/-! ## Conditions at each member of a list -/

/-- `P before x` holds at each member `x`, with `before` the members in front of it. -/
def AtEach (P : List α → α → Prop) (xs : List α) : Prop :=
  ∀ before x after, xs = before ++ x :: after → P before x

namespace AtEach

theorem congr {P Q : List α → α → Prop} (h : ∀ before x, P before x ↔ Q before x) (xs : List α) :
    AtEach P xs ↔ AtEach Q xs :=
  forall_congr' fun _ => forall_congr' fun _ => forall_congr' fun _ =>
    imp_congr_right fun _ => h _ _

theorem and_iff {P Q : List α → α → Prop} {xs : List α} :
    AtEach (fun before x => P before x ∧ Q before x) xs ↔ AtEach P xs ∧ AtEach Q xs := by
  constructor
  · intro h
    exact ⟨fun _ _ _ he => (h _ _ _ he).1, fun _ _ _ he => (h _ _ _ he).2⟩
  · rintro ⟨hp, hq⟩ before x after he
    exact ⟨hp _ _ _ he, hq _ _ _ he⟩

theorem nil (P : List α → α → Prop) : AtEach P [] := by
  intro before x after h
  simp at h

theorem cons_iff {P : List α → α → Prop} {x : α} {xs : List α} :
    AtEach P (x :: xs) ↔ P [] x ∧ AtEach (fun before => P (x :: before)) xs := by
  constructor
  · intro h
    exact ⟨h [] x xs rfl, fun before y after he => h (x :: before) y after (by rw [he]; rfl)⟩
  · rintro ⟨hx, hxs⟩ before y after he
    rcases List.cons_eq_append_iff.1 he with ⟨rfl, hy⟩ | ⟨before', rfl, hxs'⟩
    · obtain ⟨rfl, rfl⟩ := List.cons.inj hy
      exact hx
    · exact hxs before' y after hxs'

theorem append_iff {P : List α → α → Prop} {xs ys : List α} :
    AtEach P (xs ++ ys) ↔ AtEach P xs ∧ AtEach (fun before => P (xs ++ before)) ys := by
  induction xs generalizing P with
  | nil => simp [nil]
  | cons x xs ih => simp only [List.cons_append, cons_iff, ih, and_assoc]

/-- A condition that does not look at what stands in front. -/
theorem const_iff {p : α → Prop} {xs : List α} :
    AtEach (fun _ x => p x) xs ↔ ∀ x ∈ xs, p x := by
  induction xs with
  | nil => simp [nil]
  | cons x xs ih => simp only [cons_iff, ih, List.forall_mem_cons]

theorem map_iff {P : List β → β → Prop} {f : α → β} {xs : List α} :
    AtEach P (xs.map f) ↔ AtEach (fun before x => P (before.map f) (f x)) xs := by
  induction xs generalizing P with
  | nil => simp [nil]
  | cons x xs ih => simp only [List.map_cons, cons_iff, ih, List.map_nil]

/-- On a concatenation, part by part. -/
theorem flatMap_iff {P : List β → β → Prop} {f : α → List β} {xs : List α} :
    AtEach P (xs.flatMap f) ↔
      AtEach (fun before x => AtEach (fun part => P (before.flatMap f ++ part)) (f x)) xs := by
  induction xs generalizing P with
  | nil => simp [nil]
  | cons x xs ih =>
    simp only [List.flatMap_cons, append_iff, cons_iff, ih, List.flatMap_nil, List.nil_append,
      List.append_assoc]

/-- It holds at each member, or there is a first one at which it does not. -/
theorem or_first (P : List α → α → Prop) (xs : List α) :
    AtEach P xs ∨ ∃ before x after, xs = before ++ x :: after ∧ AtEach P before ∧ ¬P before x := by
  induction xs generalizing P with
  | nil => exact Or.inl (nil P)
  | cons x xs ih =>
    by_cases hx : P [] x
    · obtain hxs | ⟨before, y, after, rfl, hbefore, hy⟩ := ih fun before => P (x :: before)
      · exact Or.inl (cons_iff.2 ⟨hx, hxs⟩)
      · exact Or.inr ⟨x :: before, y, after, rfl, cons_iff.2 ⟨hx, hbefore⟩, hy⟩
    · exact Or.inr ⟨[], x, xs, rfl, nil P, hx⟩

/-- A list without repetition: no member stands in front of itself. -/
theorem nodup_iff {xs : List α} : AtEach (fun before x => x ∉ before) xs ↔ xs.Nodup := by
  induction xs with
  | nil => simp [nil]
  | cons x xs ih =>
    simp only [cons_iff, List.mem_cons, not_or, and_iff, const_iff, ih, List.nodup_cons,
      List.not_mem_nil, not_false_eq_true, true_and]
    refine and_congr_left fun _ => ⟨fun h hx => h x hx rfl, fun h y hy he => h (he ▸ hy)⟩

end AtEach

/-! ## Outcomes of attempts -/

theorem exists_of_map_ok {r : Except ε α} {f : α → β} {b : β} (h : r.map f = .ok b) :
    ∃ a, r = .ok a ∧ f a = b := by
  cases r with
  | ok a => exact ⟨a, rfl, Except.ok.inj h⟩
  | error e => cases h

theorem exists_of_bind_ok {r : Except ε α} {f : α → Except ε β} {b : β} (h : r >>= f = .ok b) :
    ∃ a, r = .ok a ∧ f a = .ok b := by
  cases r with
  | ok a => exact ⟨a, rfl, h⟩
  | error e => cases h

/-- The attempt ends in an error in `E` or in a result in `Q`. -/
def Yields (r : Except ε α) (E : ε → Prop) (Q : α → Prop) : Prop :=
  match r with
  | .ok a => Q a
  | .error e => E e

namespace Yields

variable {r : Except ε α} {E E' : ε → Prop} {Q Q' : α → Prop}

theorem result (h : Yields r E Q) {a : α} (ha : r = .ok a) : Q a := by
  subst ha
  exact h

theorem error (h : Yields r E Q) {e : ε} (he : r = .error e) : E e := by
  subst he
  exact h

/-- An attempt yields its own error or its own result. -/
theorem self (hE : ∀ e, r = .error e → E e) : Yields r E fun a => r = .ok a := by
  cases r with
  | ok a => exact rfl
  | error e => exact hE e rfl

theorem mono (h : Yields r E Q) (hE : ∀ e, E e → E' e) (hQ : ∀ a, Q a → Q' a) :
    Yields r E' Q' := by
  cases r with
  | ok a => exact hQ a h
  | error e => exact hE e h

theorem bind {f : α → Except ε β} {Q' : β → Prop} (h : Yields r E Q)
    (hf : ∀ a, Q a → Yields (f a) E Q') : Yields (r >>= f) E Q' := by
  cases r with
  | ok a => exact hf a h
  | error e => exact h

theorem map {f : α → β} {Q' : β → Prop} (h : Yields r E Q) (hf : ∀ a, Q a → Q' (f a)) :
    Yields (r.map f) E Q' := by
  cases r with
  | ok a => exact hf a h
  | error e => exact h

/-- A list of attempts, one after the other, each with the result that `g` says. -/
theorem mapM {f : α → Except ε β} {g : α → β} :
    ∀ xs : List α, (∀ x ∈ xs, Yields (f x) E fun y => y = g x) →
      Yields (xs.mapM f) E fun ys => ys = xs.map g
  | [], _ => rfl
  | x :: xs, h => by
    obtain ⟨hx, hxs⟩ := List.forall_mem_cons.1 h
    rw [List.mapM_cons]
    refine hx.bind fun y hy => (mapM xs hxs).bind fun ys hys => ?_
    rw [List.map_cons, ← hy, ← hys]
    exact rfl

/-- A scan ends in no other errors than its steps. -/
theorem foldlM {step : σ → α → Except ε σ} :
    ∀ xs : List α, (∀ x ∈ xs, ∀ s, Yields (step s x) E fun _ => True) →
      ∀ s : σ, Yields (xs.foldlM step s) E fun _ => True
  | [], _, _ => trivial
  | x :: xs, h, s => by
    obtain ⟨hx, hxs⟩ := List.forall_mem_cons.1 h
    rw [List.foldlM_cons]
    exact (hx s).bind fun s' _ => foldlM xs hxs s'

end Yields

/-- The attempt may end in a mismatch, and in no other error. -/
abbrev MayMismatch (r : Except Fault α) : Prop :=
  Yields r (fun fault => fault.kind = "SchemaMismatch") fun _ => True

/-- The attempt succeeds just where `P` holds, and then with a result in `Q`. -/
def Decides (r : Except ε α) (P : Prop) (Q : α → Prop) : Prop :=
  Yields r (fun _ => ¬P) fun a => P ∧ Q a

namespace Decides

theorem ok_iff {r : Except ε α} {P : Prop} {Q : α → Prop} (h : Decides r P Q) :
    (∃ a, r = .ok a) ↔ P := by
  cases r with
  | ok a => exact ⟨fun _ => h.1, fun _ => ⟨a, rfl⟩⟩
  | error e => exact ⟨fun ⟨_, he⟩ => (nomatch he), fun hP => absurd hP h⟩

theorem result {r : Except ε α} {P : Prop} {Q : α → Prop} (h : Decides r P Q) {a : α}
    (ha : r = .ok a) : Q a := by
  subst ha
  exact h.2

theorem pure {a : α} {Q : α → Prop} (h : Q a) : Decides (.ok a : Except ε α) True Q :=
  ⟨trivial, h⟩

theorem congr {r : Except ε α} {P P' : Prop} {Q : α → Prop} (h : Decides r P Q) (hP : P ↔ P') :
    Decides r P' Q := by
  rwa [← propext hP]

theorem mono {r : Except ε α} {P : Prop} {Q Q' : α → Prop} (h : Decides r P Q)
    (hQ : ∀ a, Q a → Q' a) : Decides r P Q' :=
  Yields.mono h (fun _ h' => h') fun a ha => ⟨ha.1, hQ a ha.2⟩

theorem bind {r : Except ε α} {f : α → Except ε β} {P P' : Prop} {Q : α → Prop} {Q' : β → Prop}
    (h : Decides r P Q) (hf : ∀ a, Q a → Decides (f a) P' Q') : Decides (r >>= f) (P ∧ P') Q' := by
  cases r with
  | ok a => exact (hf a h.2).congr ⟨fun h' => ⟨h.1, h'⟩, fun h' => h'.2⟩
  | error e => exact fun hP => h hP.1

theorem ite {P : Prop} [Decidable P] {a : α} {e : ε} {Q : α → Prop} (h : P → Q a) :
    Decides (if P then .ok a else .error e : Except ε α) P Q := by
  by_cases hP : P
  · rw [if_pos hP]
    exact ⟨hP, h hP⟩
  · rw [if_neg hP]
    exact hP

end Decides

/-- **A scan whose steps decide `P` decides `AtEach P`.** The state tracks what
    has been read: `Tracks s past`. -/
theorem decides_foldlM {step : σ → α → Except ε σ} (P : List α → α → Prop)
    (Tracks : σ → List α → Prop)
    (hstep : ∀ s past x, Tracks s past →
      Decides (step s x) (P past x) fun s' => Tracks s' (past ++ [x])) :
    ∀ (xs past : List α) (s : σ), Tracks s past →
      Decides (xs.foldlM step s) (AtEach (fun before => P (past ++ before)) xs) fun s' =>
        Tracks s' (past ++ xs)
  | [], past, s, hs => by
    rw [List.append_nil]
    exact ⟨AtEach.nil _, hs⟩
  | x :: xs, past, s, hs => by
    have hxs := (hstep s past x hs).bind fun s' => decides_foldlM P Tracks hstep xs (past ++ [x]) s'
    rw [List.foldlM_cons, List.append_cons]
    refine hxs.congr ?_
    simp only [AtEach.cons_iff, List.append_nil, List.append_assoc, List.singleton_append]

end LedgerClient
