/-
  Two updates side by side.

  * `Pair` is a desk and a store with two updates, each at its own point; `Pair.Step` lets one of
    them take a step, and `Pair.Runs` any number of them, with a record of who took which;
  * `Overtaken a steps` says that the update `a` replaced the account first, and wrote last;
  * `Stage` lists where the two may stand, and is kept by every step;
  * `agrees_unless_overtaken`: when both have ended, the store holds the account on the desk,
    unless one of them was overtaken.
-/
import LedgerClient.Proofs.Connection.Keeping
import Mathlib.Data.Bool.Basic
import Mathlib.Logic.Function.Basic

namespace LedgerClient.Connection

open DryRun Job

/-! ## Pairs of updates -/

/-- Two updates side by side: the desk, the outside, and what is left to do of each. -/
structure Pair (ω : Type) where
  desk : Desk
  world : ω
  rest : Bool → Work (Except Fault (Option AccountRef))

namespace Pair

variable {ω : Type}

/-- Two updates before their first steps. -/
def start (accounts : Bool → List WalletAccount) (d : Desk) (w : ω) : Pair ω :=
  ⟨d, w, fun side => (update true (accounts side)).run⟩

/-- One of the two takes a step, in which it puts these questions. -/
inductive Step (answer : (q : Question) → StateM ω q.Answer) :
    Pair ω → Bool × List Question → Pair ω → Prop
  | act {p : Pair ω} {side : Bool} {change : Desk → Desk}
      {next : Desk → Work (Except Fault (Option AccountRef))} (h : p.rest side = .act change next) :
      Step answer p (side, [])
        ⟨change p.desk, p.world, Function.update p.rest side (next p.desk)⟩
  | ask {p : Pair ω} {side : Bool} {q : Question}
      {next : q.Answer → Work (Except Fault (Option AccountRef))} (h : p.rest side = .ask q next) :
      Step answer p (side, [q])
        ⟨p.desk, (answer q p.world).2, Function.update p.rest side (next (answer q p.world).1)⟩

/-- The steps that two updates may take, in any order. -/
inductive Runs (answer : (q : Question) → StateM ω q.Answer) (p : Pair ω) :
    List (Bool × List Question) → Pair ω → Prop
  | none : Runs answer p [] p
  | step {steps : List (Bool × List Question)} {p' p'' : Pair ω} {step : Bool × List Question} :
      Runs answer p steps p' → Step answer p' step p'' → Runs answer p (steps ++ [step]) p''

/-- Both updates have ended. -/
def Ended (p : Pair ω) : Prop :=
  ∀ side, (p.rest side).isDone = true

/-! ## What a step can be -/

variable {answer : (q : Question) → StateM ω q.Answer} {p p' : Pair ω} {side : Bool}
  {qs : List Question}

theorem Step.of_done {result : Except Fault (Option AccountRef)}
    (hrest : p.rest side = .done result) : ¬ Step answer p (side, qs) p' := by
  intro h
  cases h with
  | act h => simp [hrest] at h
  | ask h => simp [hrest] at h

/-- An update that has not ended can take a step. -/
theorem exists_step (hrest : (p.rest side).isDone = false) :
    ∃ qs p', Step answer p (side, qs) p' := by
  cases h : p.rest side with
  | done result => simp [h, isDone] at hrest
  | act change next => exact ⟨[], _, .act h⟩
  | ask q next => exact ⟨[q], _, .ask h⟩

/-- The first step of an update replaces the account on the desk. -/
theorem Step.of_update {accounts : List WalletAccount}
    (hrest : p.rest side = (update true accounts).run) (h : Step answer p (side, qs) p') :
    qs = [] ∧ p'.desk.account = first? accounts ∧
      (∀ {account}, Holds answer p.world account → Holds answer p'.world account) ∧
      (∀ other ≠ side, p'.rest other = p.rest other) ∧
      (p.desk.account = first? accounts ∧ p'.rest side = .done (.ok (first? accounts)) ∨
        p.desk.account ≠ first? accounts ∧ p'.rest side = writing (first? accounts)) := by
  rw [update_eq] at hrest
  cases h with
  | act h =>
    rw [hrest] at h
    cases h
    refine ⟨rfl, rfl, id, fun other hne => Function.update_of_ne hne _ _, ?_⟩
    dsimp only
    rw [Function.update_self]
    by_cases hsame : p.desk.account = first? accounts
    · exact Or.inl ⟨hsame, if_pos hsame⟩
    · exact Or.inr ⟨hsame, if_neg hsame⟩
  | ask h =>
    rw [hrest] at h
    cases h

/-- The second one, if there is one, writes it to the store. -/
theorem Step.of_writing (hkeeps : Keeps answer) {next account : Option AccountRef}
    (hrest : p.rest side = writing next) (hstore : Holds answer p.world account)
    (h : Step answer p (side, qs) p') :
    ∃ q, qs = [q] ∧ p'.desk.account = p.desk.account ∧ Holds answer p'.world next ∧
      (∀ other ≠ side, p'.rest other = p.rest other) ∧ p'.rest side = .done (.ok next) := by
  obtain ⟨q, more, hwriting, hmore, hholds⟩ := writing_asks hkeeps hstore next
  rw [hwriting] at hrest
  cases h with
  | act h =>
    rw [hrest] at h
    cases h
  | ask h =>
    rw [hrest] at h
    cases h
    refine ⟨q, rfl, rfl, hholds, fun other hne => Function.update_of_ne hne _ _, ?_⟩
    dsimp only
    rw [Function.update_self]
    exact hmore

end Pair

@[simp] theorem isDone_update (accounts : List WalletAccount) :
    (update true accounts).run.isDone = false := by
  rw [update_eq]
  rfl

@[simp] theorem isDone_writing (next : Option AccountRef) : (writing next).isDone = false := by
  cases next <;> rfl

/-! ## Where two updates may stand -/

/-- The update of this side replaces the account before the other one, and writes it after the
    other one. -/
def Overtaken (a : Bool) (steps : List (Bool × List Question)) : Prop :=
  ∃ q q', steps = [(a, []), (!a, []), (!a, [q]), (a, [q'])]

theorem Overtaken.unique {a b : Bool} {steps : List (Bool × List Question)}
    (ha : Overtaken a steps) (hb : Overtaken b steps) : a = b := by
  obtain ⟨q₁, q₂, rfl⟩ := ha
  obtain ⟨q₃, q₄, h⟩ := hb
  exact congrArg Prod.fst (List.cons.inj h).1

theorem overtaken_concat_iff {a side : Bool} {steps : List (Bool × List Question)}
    {qs : List Question} :
    Overtaken a (steps ++ [(side, qs)]) ↔
      ∃ q q', steps = [(a, []), (!a, []), (!a, [q])] ∧ side = a ∧ qs = [q'] := by
  have hconcat : ∀ q q' : Question, steps ++ [(side, qs)] =
      [(a, []), (!a, []), (!a, [q])] ++ [(a, [q'])] ↔
        steps = [(a, []), (!a, []), (!a, [q])] ∧ side = a ∧ qs = [q'] := by
    intro q q'
    rw [List.append_singleton_inj, Prod.mk.injEq]
  exact exists_congr fun q => exists_congr fun q' => hconcat q q'

variable {ω : Type}

/-- Where two updates may stand after some steps. -/
inductive Stage (answer : (q : Question) → StateM ω q.Answer)
    (accounts : Bool → List WalletAccount) : List (Bool × List Question) → Pair ω → Prop
  /-- neither has taken a step -/
  | fresh {p : Pair ω} {account : Option AccountRef}
      (rest : ∀ side, p.rest side = (update true (accounts side)).run)
      (agrees : Agrees answer account p.desk p.world) : Stage answer accounts [] p
  /-- one of them has replaced the account, and is to write it -/
  | replaced {p : Pair ω} {account : Option AccountRef} (a : Bool)
      (mine : p.rest a = writing (first? (accounts a)))
      (other : p.rest (!a) = (update true (accounts !a)).run)
      (desk : p.desk.account = first? (accounts a)) (store : Holds answer p.world account) :
      Stage answer accounts [(a, [])] p
  /-- one of them has ended, and the other one has not taken a step -/
  | alone {p : Pair ω} {steps : List (Bool × List Question)} (a : Bool)
      (mine : p.rest a = .done (.ok (first? (accounts a))))
      (other : p.rest (!a) = (update true (accounts !a)).run)
      (agrees : Agrees answer (first? (accounts a)) p.desk p.world) : Stage answer accounts steps p
  /-- both are to write, and `a` was the first one to replace the account -/
  | both {p : Pair ω} {account : Option AccountRef} (a : Bool)
      (mine : p.rest a = writing (first? (accounts a)))
      (other : p.rest (!a) = writing (first? (accounts !a)))
      (desk : p.desk.account = first? (accounts !a)) (store : Holds answer p.world account)
      (differ : first? (accounts a) ≠ first? (accounts !a)) :
      Stage answer accounts [(a, []), (!a, [])] p
  /-- the other one has ended, and `a` is to write an account that is not on the desk any more -/
  | overtaking {p : Pair ω} (a : Bool) (q : Question)
      (mine : p.rest a = writing (first? (accounts a)))
      (other : p.rest (!a) = .done (.ok (first? (accounts !a))))
      (agrees : Agrees answer (first? (accounts !a)) p.desk p.world)
      (differ : first? (accounts a) ≠ first? (accounts !a)) :
      Stage answer accounts [(a, []), (!a, []), (!a, [q])] p
  /-- the other one has ended, and `a` is to write the account on the desk -/
  | last {p : Pair ω} {steps : List (Bool × List Question)} {account : Option AccountRef} (a : Bool)
      (mine : p.rest a = writing (first? (accounts a)))
      (other : p.rest (!a) = .done (.ok (first? (accounts !a))))
      (desk : p.desk.account = first? (accounts a)) (store : Holds answer p.world account)
      (ordered : ∀ side q, ¬ Overtaken side (steps ++ [(a, [q])])) : Stage answer accounts steps p
  /-- both have ended, and none was overtaken -/
  | agreed {p : Pair ω} {steps : List (Bool × List Question)} {account : Option AccountRef}
      (rest : ∀ side, p.rest side = .done (.ok (first? (accounts side))))
      (agrees : Agrees answer account p.desk p.world)
      (ordered : ∀ side, ¬ Overtaken side steps) : Stage answer accounts steps p
  /-- both have ended, and `a` was overtaken -/
  | stale {p : Pair ω} {steps : List (Bool × List Question)} (a : Bool)
      (rest : ∀ side, p.rest side = .done (.ok (first? (accounts side))))
      (desk : p.desk.account = first? (accounts !a))
      (store : Holds answer p.world (first? (accounts a)))
      (differ : first? (accounts a) ≠ first? (accounts !a))
      (overtaken : Overtaken a steps) : Stage answer accounts steps p

namespace Stage

open Pair

variable {answer : (q : Question) → StateM ω q.Answer} (hkeeps : Keeps answer)
  {accounts : Bool → List WalletAccount} {p p' : Pair ω} {steps : List (Bool × List Question)}

include hkeeps

/-- **Every step leads to one of the stages again.** -/
theorem step {side : Bool} {qs : List Question} (h : Stage answer accounts steps p)
    (hstep : Step answer p (side, qs) p') : Stage answer accounts (steps ++ [(side, qs)]) p' := by
  cases h with
  | @fresh _ account rest agrees =>
    obtain ⟨rfl, hdesk, hstore, hkept, hmine⟩ := hstep.of_update (rest side)
    have hother := (hkept (!side) (Bool.not_ne_self side)).trans (rest !side)
    obtain ⟨hsame, hmine⟩ | ⟨-, hmine⟩ := hmine
    · obtain rfl : account = first? (accounts side) := agrees.desk.symm.trans hsame
      exact .alone side hmine hother ⟨hdesk, hstore agrees.store⟩
    · exact .replaced side hmine hother hdesk (hstore agrees.store)
  | replaced a mine other desk store =>
    obtain rfl | rfl := Bool.eq_or_eq_not side a
    · obtain ⟨q, rfl, hdesk, hstore, hkept, hmine⟩ := hstep.of_writing hkeeps mine store
      have hother := (hkept (!side) (Bool.not_ne_self side)).trans other
      exact .alone side hmine hother ⟨hdesk.trans desk, hstore⟩
    · obtain ⟨rfl, hdesk, hstore, hkept, hother⟩ := hstep.of_update other
      have hmine := (hkept a (Bool.self_ne_not a)).trans mine
      obtain ⟨hsame, hother⟩ | ⟨hdiffer, hother⟩ := hother
      · refine .last a hmine hother (hdesk.trans (hsame.symm.trans desk)) (hstore store) ?_
        rintro side q ⟨q₁, q₂, hsteps⟩
        simp at hsteps
      · exact .both a hmine hother hdesk (hstore store) (desk ▸ hdiffer)
  | alone a mine other agrees =>
    obtain rfl | rfl := Bool.eq_or_eq_not side a
    · exact absurd hstep (Step.of_done mine)
    · obtain ⟨rfl, hdesk, hstore, hkept, hother⟩ := hstep.of_update other
      have hmine := (hkept a (Bool.self_ne_not a)).trans mine
      obtain ⟨hsame, hother⟩ | ⟨-, hother⟩ := hother
      · have hrest : ∀ side, p'.rest side = .done (.ok (first? (accounts side))) :=
          (Bool.forall_bool' a).2 ⟨hmine, hother⟩
        have hsame : first? (accounts a) = first? (accounts !a) := agrees.desk.symm.trans hsame
        refine .agreed hrest ⟨hdesk.trans hsame.symm, hstore agrees.store⟩ fun side => ?_
        simp [overtaken_concat_iff]
      · refine .last (!a) hother ?_ hdesk (hstore agrees.store) fun side q => ?_
        · rwa [Bool.not_not]
        · rw [overtaken_concat_iff]
          rintro ⟨q₁, -, hsteps, -⟩
          have hreplaced := congrArg List.getLast? hsteps
          simp at hreplaced
  | both a mine other desk store differ =>
    obtain rfl | rfl := Bool.eq_or_eq_not side a
    · obtain ⟨q, rfl, hdesk, hstore, hkept, hmine⟩ := hstep.of_writing hkeeps mine store
      have hother := (hkept (!side) (Bool.not_ne_self side)).trans other
      refine .last (!side) hother ?_ (hdesk.trans desk) hstore ?_
      · rwa [Bool.not_not]
      · rintro a q' ⟨q₁, q₂, hsteps⟩
        obtain ⟨rfl, -, hfirst, -⟩ : side = a ∧ _ ∧ side = !a ∧ _ := by simpa using hsteps
        exact absurd hfirst (Bool.self_ne_not side)
    · obtain ⟨q, rfl, hdesk, hstore, hkept, hother⟩ := hstep.of_writing hkeeps other store
      have hmine := (hkept a (Bool.self_ne_not a)).trans mine
      exact .overtaking a q hmine hother ⟨hdesk.trans desk, hstore⟩ differ
  | overtaking a q mine other agrees differ =>
    obtain rfl | rfl := Bool.eq_or_eq_not side a
    · obtain ⟨q', rfl, hdesk, hstore, hkept, hmine⟩ := hstep.of_writing hkeeps mine agrees.store
      have hother := (hkept (!side) (Bool.not_ne_self side)).trans other
      exact .stale side ((Bool.forall_bool' side).2 ⟨hmine, hother⟩)
        (hdesk.trans agrees.desk) hstore differ ⟨q, q', rfl⟩
    · exact absurd hstep (Step.of_done other)
  | last a mine other desk store ordered =>
    obtain rfl | rfl := Bool.eq_or_eq_not side a
    · obtain ⟨q, rfl, hdesk, hstore, hkept, hmine⟩ := hstep.of_writing hkeeps mine store
      have hother := (hkept (!side) (Bool.not_ne_self side)).trans other
      exact .agreed ((Bool.forall_bool' side).2 ⟨hmine, hother⟩)
        ⟨hdesk.trans desk, hstore⟩ fun a => ordered a q
    · exact absurd hstep (Step.of_done other)
  | agreed rest agrees ordered => exact absurd hstep (Step.of_done (rest side))
  | stale a rest desk store differ overtaken => exact absurd hstep (Step.of_done (rest side))

/-- Any number of steps does. -/
theorem of_runs {d : Desk} {w : ω} (hw : Holds answer w d.account)
    (hruns : Runs answer (start accounts d w) steps p) : Stage answer accounts steps p := by
  induction hruns with
  | none => exact .fresh (fun _ => rfl) ⟨rfl, hw⟩
  | step _ hstep ih => exact ih.step hkeeps hstep

omit hkeeps

/-- Two updates that have ended agree with the store, or one of them was overtaken. -/
theorem of_ended (h : Stage answer accounts steps p) (hended : p.Ended) :
    (∀ side, p.rest side = .done (.ok (first? (accounts side)))) ∧
      ((Holds answer p.world p.desk.account ∧ ∀ a, ¬ Overtaken a steps) ∨
        (¬ Holds answer p.world p.desk.account ∧ ∃ a, Overtaken a steps ∧
          p.desk.account = first? (accounts !a) ∧ Holds answer p.world (first? (accounts a)))) := by
  have hupdate : ∀ {side}, p.rest side ≠ (update true (accounts side)).run := by
    intro side hrest
    simpa [hrest] using hended side
  have hwriting : ∀ {side next}, p.rest side ≠ writing next := by
    intro side next hrest
    simpa [hrest] using hended side
  cases h with
  | fresh rest agrees => exact absurd (rest true) hupdate
  | replaced a mine other desk store => exact absurd mine hwriting
  | alone a mine other agrees => exact absurd other hupdate
  | both a mine other desk store differ => exact absurd mine hwriting
  | overtaking a q mine other agrees differ => exact absurd mine hwriting
  | last a mine other desk store ordered => exact absurd mine hwriting
  | agreed rest agrees ordered =>
    refine ⟨rest, Or.inl ⟨?_, ordered⟩⟩
    rw [agrees.desk]
    exact agrees.store
  | stale a rest desk store differ overtaken =>
    refine ⟨rest, Or.inr ⟨fun hholds => ?_, a, overtaken, desk, store⟩⟩
    rw [desk] at hholds
    exact differ (Except.ok.inj (store.symm.trans hholds))

end Stage

/-- Where an update is to replace the account, and the other one to replace it by yet another
    one, it may be overtaken. -/
theorem exists_overtaken {ω : Type} {answer : (q : Question) → StateM ω q.Answer}
    (hkeeps : Keeps answer) {d : Desk} {w : ω} (hw : Holds answer w d.account)
    {accounts : Bool → List WalletAccount} {a : Bool}
    (hchanged : d.account ≠ first? (accounts a))
    (hdiffer : first? (accounts a) ≠ first? (accounts !a)) :
    ∃ steps p, Pair.Runs answer (.start accounts d w) steps p ∧ p.Ended ∧ Overtaken a steps := by
  -- the one replaces the account
  obtain ⟨qs, p₁, h₁⟩ : ∃ qs p, Pair.Step answer (.start accounts d w) (a, qs) p :=
    Pair.exists_step (isDone_update _)
  obtain ⟨rfl, hdesk₁, hstore₁, hkept₁, hmine₁⟩ := h₁.of_update rfl
  have hmine₁ : p₁.rest a = writing (first? (accounts a)) :=
    (hmine₁.resolve_left fun h => hchanged h.1).2
  have hother₁ : p₁.rest (!a) = (update true (accounts !a)).run := hkept₁ _ (Bool.not_ne_self a)
  -- the other one replaces it
  obtain ⟨qs, p₂, h₂⟩ : ∃ qs p, Pair.Step answer p₁ (!a, qs) p :=
    Pair.exists_step (by rw [hother₁, isDone_update])
  obtain ⟨rfl, -, hstore₂, hkept₂, hother₂⟩ := h₂.of_update hother₁
  have hother₂ : p₂.rest (!a) = writing (first? (accounts !a)) :=
    (hother₂.resolve_left fun h => hdiffer (hdesk₁.symm.trans h.1)).2
  have hmine₂ : p₂.rest a = writing (first? (accounts a)) :=
    (hkept₂ a (Bool.self_ne_not a)).trans hmine₁
  -- the other one writes
  obtain ⟨qs, p₃, h₃⟩ : ∃ qs p, Pair.Step answer p₂ (!a, qs) p :=
    Pair.exists_step (by rw [hother₂, isDone_writing])
  obtain ⟨q, rfl, -, hstore₃, hkept₃, hother₃⟩ :=
    h₃.of_writing hkeeps hother₂ (hstore₂ (hstore₁ hw))
  have hmine₃ : p₃.rest a = writing (first? (accounts a)) :=
    (hkept₃ a (Bool.self_ne_not a)).trans hmine₂
  -- the one writes
  obtain ⟨qs, p₄, h₄⟩ : ∃ qs p, Pair.Step answer p₃ (a, qs) p :=
    Pair.exists_step (by rw [hmine₃, isDone_writing])
  obtain ⟨q', rfl, -, -, hkept₄, hmine₄⟩ := h₄.of_writing hkeeps hmine₃ hstore₃
  have hother₄ := (hkept₄ (!a) (Bool.not_ne_self a)).trans hother₃
  refine ⟨_, p₄, .step (.step (.step (.step .none h₁) h₂) h₃) h₄, ?_, q, q', rfl⟩
  refine (Bool.forall_bool' a).2 ⟨?_, ?_⟩
  · rw [hmine₄]
    rfl
  · rw [hother₄]
    rfl

/-- **The store and the desk agree unless an update was overtaken.** Two updates are made side
    by side where they agree before. When both have ended, each has come to the first of its
    accounts. The store then holds the account on the desk, unless the update that replaced the
    account first wrote it last: then the store is left with the account of that update, and
    the desk with that of the other one. -/
theorem agrees_unless_overtaken {ω : Type} {answer : (q : Question) → StateM ω q.Answer}
    (hkeeps : Keeps answer) {d : Desk} {w : ω} (hw : Holds answer w d.account)
    (accounts : Bool → List WalletAccount) {steps : List (Bool × List Question)} {p : Pair ω}
    (hruns : Pair.Runs answer (.start accounts d w) steps p) (hended : p.Ended) :
    (∀ side, p.rest side = .done (.ok (first? (accounts side)))) ∧
    (Holds answer p.world p.desk.account ↔ ∀ a, ¬ Overtaken a steps) ∧
    ∀ a, Overtaken a steps → IsFirst (accounts !a) p.desk.account ∧
      ∃ account, IsFirst (accounts a) account ∧ Holds answer p.world account := by
  have hstage : Stage answer accounts steps p := .of_runs hkeeps hw hruns
  obtain ⟨hrest, ⟨hholds, hordered⟩ | ⟨hlost, a, hovertaken, hdesk, hstore⟩⟩ :=
    hstage.of_ended hended
  · exact ⟨hrest, iff_of_true hholds hordered, fun a ha => absurd ha (hordered a)⟩
  · refine ⟨hrest, iff_of_false hlost fun hordered => hordered a hovertaken, fun b hb => ?_⟩
    obtain rfl := hb.unique hovertaken
    exact ⟨isFirst_iff.2 hdesk.symm, _, isFirst_iff.2 rfl, hstore⟩

/-- Also where the wallet reports two accounts one right after the other, and the first of them
    is written last. -/
theorem agrees_unless_overtaken_two_accounts :
    let first : AccountRef := ⟨"account_rdx1qqqqqq", by decide, by decide⟩
    let second : AccountRef := ⟨"account_rdx1zzzzzz", by decide, by decide⟩
    let accounts : Bool → List WalletAccount := fun side =>
      [⟨" ", none⟩, ⟨if side then " account_rdx1zzzzzz" else " account_rdx1qqqqqq", none⟩]
    let site : Site := .make "https://gateway" "https://wallet" .inMemory
    let m : Machine := ⟨0, ⟨"gateway", [], []⟩, [], none, 0, false⟩
    ∃ steps p, Pair.Runs (site.outside (.ok [])) (.start accounts .fresh m) steps p ∧ p.Ended ∧
      p.desk.account = some second ∧ site.kept p.world = .ok (some first) := by
  intro first second accounts site m
  have hsite : site.keeping ≠ .nowhere := (by decide : Keeping.inMemory ≠ .nowhere)
  have hkeeps : Keeps (site.outside (.ok [])) := Site.keeps hsite _
  have hw : Holds (site.outside (.ok [])) m Desk.fresh.account := rfl
  have hfirst : first? (accounts false) = some first :=
    isFirst_iff.1 ⟨[⟨" ", none⟩], _, [], rfl, by decide, by decide⟩
  have hsecond : first? (accounts true) = some second :=
    isFirst_iff.1 ⟨[⟨" ", none⟩], _, [], rfl, by decide, by decide⟩
  have hchanged : Desk.fresh.account ≠ first? (accounts false) := by
    rw [hfirst]
    nofun
  have hdiffer : first? (accounts false) ≠ first? (accounts !false) := by
    rw [Bool.not_false, hfirst, hsecond]
    decide
  obtain ⟨steps, p, hruns, hended, hovertaken⟩ := exists_overtaken hkeeps hw hchanged hdiffer
  obtain ⟨-, -, hstale⟩ := agrees_unless_overtaken hkeeps hw accounts hruns hended
  obtain ⟨hdesk, account, hlost, hstore⟩ := hstale false hovertaken
  obtain rfl : some first = account := hfirst.symm.trans (isFirst_iff.1 hlost)
  exact ⟨steps, p, hruns, hended, (isFirst_iff.1 hdesk).symm.trans hsecond, hstore⟩

/-- So the store may be left with an account that is not connected any more. -/
theorem overtaken_account_stays :
    let accounts : Bool → List WalletAccount := fun side =>
      if side then [] else [⟨"account_rdx1qqqqqq", none⟩]
    let site : Site := .make "https://gateway" "https://wallet" .inMemory
    let m : Machine := ⟨0, ⟨"gateway", [], []⟩, [], none, 0, false⟩
    let answer := site.outside (.ok [])
    Keeps answer ∧ Holds answer m Desk.fresh.account ∧
      ∃ steps p, Pair.Runs answer (.start accounts .fresh m) steps p ∧ p.Ended ∧
        ¬ Holds answer p.world p.desk.account := by
  intro accounts site m answer
  have hsite : site.keeping ≠ .nowhere := (by decide : Keeping.inMemory ≠ .nowhere)
  have hkeeps : Keeps answer := Site.keeps hsite _
  have hw : Holds answer m Desk.fresh.account := rfl
  have hfirst : first? (accounts false) = some ⟨"account_rdx1qqqqqq", by decide, by decide⟩ :=
    isFirst_iff.1 ⟨[], _, [], rfl, nofun, by decide⟩
  have hchanged : Desk.fresh.account ≠ first? (accounts false) := by
    rw [hfirst]
    nofun
  have hdiffer : first? (accounts false) ≠ first? (accounts !false) := by
    rw [hfirst]
    nofun
  obtain ⟨steps, p, hruns, hended, hovertaken⟩ := exists_overtaken hkeeps hw hchanged hdiffer
  have hstage : Stage answer accounts steps p := .of_runs hkeeps hw hruns
  obtain ⟨-, ⟨-, hordered⟩ | ⟨hlost, -⟩⟩ := hstage.of_ended hended
  · exact absurd hovertaken (hordered false)
  · exact ⟨hkeeps, hw, steps, p, hruns, hended, hlost⟩

end LedgerClient.Connection
