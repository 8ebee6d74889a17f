/-
  The calls of one flow, side by side.

  * `Session` is a desk with any number of calls of `Flow.run`, each at its own point;
    `Session.Step` lets one of them take a step, at any time and in any order, or lets the
    rest of the client change what a run does not control;
  * `Call.Stage` says where a call may stand: it waits, is under way, was refused or has ended;
  * `Orderly` is kept by every step: the flag is up for the one call that is under way, and
    where none is, the phase is idle;
  * `runs_take_turns`: one run at a time, with at most one transaction each.
-/
import LedgerClient.Proofs.Flow.Run

namespace LedgerClient

open Job

/-! ## Calls -/

/-- A call of `Flow.run`. -/
structure Call where
  operation : Operation
  /-- Whether it has got past the flag, or was refused there. -/
  started : Bool
  /-- The questions that were answered, the first one first. -/
  asked : List Question
  /-- What is left to do. -/
  rest : Work (Except Fault Report)

namespace Call

/-- A call before its first step. -/
def fresh (f : Flow) (op : Operation) : Call :=
  ⟨op, false, [], (f.run op).run⟩

/-- Whether the run of a call is under way. -/
def isActive (c : Call) : Bool :=
  c.started && !c.rest.isDone

/-- The transactions that the wallet was handed, answered or not. -/
def sent (c : Call) : List TransactionRequest :=
  Question.requests (c.asked ++ c.rest.asking)

/-- A call after a step in which it put questions. -/
def move (c : Call) (qs : List Question) (rest : Work (Except Fault Report)) : Call :=
  { c with started := true, asked := c.asked ++ qs, rest := rest }

end Call

/-- A desk, and the calls on it. -/
structure Session where
  desk : Desk
  calls : List Call

namespace Session

/-- No call on a desk where nothing has happened. -/
def start : Session :=
  ⟨.fresh, []⟩

/-- One step of a session. -/
inductive Step (f : Flow) : Session → Session → Prop
  /-- an operation is called for -/
  | call (s : Session) (op : Operation) : Step f s ⟨s.desk, s.calls ++ [.fresh f op]⟩
  /-- a call takes a step -/
  | move {d d' : Desk} {before after : List Call} {c : Call} {qs : List Question}
      {rest : Work (Except Fault Report)} (h : Job.Step c.rest d qs rest d') :
      Step f ⟨d, before ++ c :: after⟩ ⟨d', before ++ c.move qs rest :: after⟩
  /-- something else happens on the desk that leaves the flag and the phase alone -/
  | aside {d d' : Desk} {calls : List Call} (h : d'.control = d.control) :
      Step f ⟨d, calls⟩ ⟨d', calls⟩

/-- The sessions that may come to be. -/
inductive Reachable (f : Flow) : Session → Prop
  | start : Reachable f start
  | step {s s' : Session} : Reachable f s → Step f s s' → Reachable f s'

end Session

/-! ## Where a call may stand -/

theorem Desk.setBusy_self {d : Desk} {busy : Bool} (h : d.busy = busy) : d.setBusy busy = d := by
  rw [setBusy, ← h]

/-- Where a call of a flow may stand, on a desk with the given control. -/
inductive Call.Stage (f : Flow) (v : Bool × Phase) (c : Call) : Prop
  | waiting (started : c.started = false) (asked : c.asked = [])
      (rest : c.rest = (f.run c.operation).run)
  | underway (started : c.started = true) (left : c.rest.isDone = false)
      (rest : c.rest.Upholds Desk.control Flow.Taken Flow.Released v)
  | refused (started : c.started = true) (asked : c.asked = [])
      (rest : c.rest = .done (.error .submissionInFlight))
  | ended (started : c.started = true) (report : Report) (rest : c.rest = .done (.ok report))

namespace Call.Stage

variable {f : Flow} {v v' : Bool × Phase} {c : Call}

/-- A call that is not under way stands where it stands, whoever has the control. -/
theorem of_not_active (h : c.Stage f v) (hc : c.isActive = false) : c.Stage f v' := by
  cases h with
  | waiting hs ha hr => exact .waiting hs ha hr
  | underway hs hl hr => simp [isActive, hs, hl] at hc
  | refused hs ha hr => exact .refused hs ha hr
  | ended hs report hr => exact .ended hs report hr

theorem of_waiting (h : c.Stage f v) (hc : c.started = false) :
    c.asked = [] ∧ c.rest = (f.run c.operation).run := by
  cases h with
  | waiting _ ha hr => exact ⟨ha, hr⟩
  | underway hs _ _ => simp [hs] at hc
  | refused hs _ _ => simp [hs] at hc
  | ended hs _ _ => simp [hs] at hc

/-- Only a call that was refused ends with a fault. -/
theorem of_fault (h : c.Stage f v) {fault : Fault} (hc : c.rest = .done (.error fault)) :
    fault = .submissionInFlight ∧ c.asked = [] := by
  cases h with
  | waiting _ _ hr =>
    rw [hr, Flow.run_eq] at hc
    cases hc
  | underway _ hl _ => simp [hc, isDone] at hl
  | refused _ ha hr =>
    rw [hr] at hc
    cases hc
    exact ⟨rfl, ha⟩
  | ended _ _ hr =>
    rw [hr] at hc
    cases hc

/-- A run under way has the flag up. -/
theorem taken (h : c.Stage f v) (hc : c.isActive = true) : Flow.Taken v := by
  cases h with
  | waiting hs _ _ => simp [isActive, hs] at hc
  | underway _ hl hr =>
    obtain ⟨-, hv⟩ | ⟨a, ha, -⟩ := hr.during_or_after
    · exact hv
    · simp [ha, isDone] at hl
  | refused _ _ hr => simp [isActive, hr, isDone] at hc
  | ended _ _ hr => simp [isActive, hr, isDone] at hc

/-- **What a step of a call can be**: it is refused, it gets past the flag, or it goes on. -/
theorem step_cases {d d' : Desk} {qs : List Question} {rest : Work (Except Fault Report)}
    (h : c.Stage f d.control) (hstep : Job.Step c.rest d qs rest d') :
    (c.started = false ∧ d.busy = true ∧
      (qs, rest, d') = ([], .done (.error .submissionInFlight), d)) ∨
    (c.started = false ∧ d.busy = false ∧
      (qs, rest, d') = ([], f.accepted c.operation, d.setBusy true)) ∨
    (c.isActive = true ∧ rest.Upholds Desk.control Flow.Taken Flow.Released d'.control) := by
  cases h with
  | waiting hs _ hr =>
    rw [hr, Flow.run_eq, step_act_iff] at hstep
    cases hbusy : d.busy with
    | true =>
      rw [hbusy, if_pos rfl, Desk.setBusy_self hbusy] at hstep
      exact Or.inl ⟨hs, rfl, hstep⟩
    | false =>
      rw [hbusy, if_neg Bool.false_ne_true] at hstep
      exact Or.inr (Or.inl ⟨hs, rfl, hstep⟩)
  | underway hs hl hr =>
    exact Or.inr (Or.inr ⟨by simp [isActive, hs, hl], hr.step hstep⟩)
  | refused _ _ hr =>
    rw [hr] at hstep
    cases hstep
  | ended _ _ hr =>
    rw [hr] at hstep
    cases hstep

/-- A run under way ends with a report, and gives the control back. -/
theorem of_end {d d' : Desk} {qs : List Question} {r : Except Fault Report}
    (h : c.Stage f d.control) (hc : c.isActive = true) (hstep : Job.Step c.rest d qs (.done r) d') :
    Flow.Released r d'.control := by
  obtain ⟨hs, -⟩ | ⟨hs, -⟩ | ⟨-, hrest⟩ := h.step_cases hstep
  · simp [isActive, hs] at hc
  · simp [isActive, hs] at hc
  · exact hrest

/-- A run that goes on is under way, or it has ended. -/
theorem of_upholds (hs : c.started = true)
    (h : c.rest.Upholds Desk.control Flow.Taken Flow.Released v) :
    c.Stage f v ∧ v.1 = c.isActive ∧ (v.1 = false → v.2 = .idle) := by
  obtain ⟨hleft, hv⟩ | ⟨r, hdone, ⟨report, rfl⟩, rfl⟩ := h.during_or_after
  · have hactive : c.isActive = true := by simp [isActive, hs, hleft]
    have hup : v.1 = true := hv
    exact ⟨.underway hs hleft h, hup.trans hactive.symm, fun hdown => by simp [hup] at hdown⟩
  · have hactive : c.isActive = false := by simp [isActive, hdone, isDone]
    exact ⟨.ended hs report hdone, hactive.symm, fun _ => rfl⟩

end Call.Stage

namespace Session

/-- What every step of a session keeps. -/
structure Orderly (f : Flow) (s : Session) : Prop where
  /-- The flag is up for the run that is under way. -/
  active : s.calls.countP Call.isActive = s.desk.busy.toNat
  idle : s.desk.busy = false → s.desk.phase = .idle
  stages : ∀ c ∈ s.calls, c.Stage f s.desk.control
  /-- What a call may still hand to the wallet and what it has are at most one transaction. -/
  thrifty : ∀ c ∈ s.calls, ∃ n,
    c.rest.Spares Question.handsOver n ∧ c.asked.countP Question.handsOver + n ≤ 1

theorem orderly_start (f : Flow) : Orderly f start :=
  ⟨rfl, fun _ => rfl, nofun, nofun⟩

namespace Orderly

variable {f : Flow}

theorem call {s : Session} (hs : Orderly f s) (op : Operation) :
    Orderly f ⟨s.desk, s.calls ++ [.fresh f op]⟩ := by
  have hmem : ∀ {p : Call → Prop}, (∀ c ∈ s.calls, p c) → p (.fresh f op) →
      ∀ c ∈ s.calls ++ [.fresh f op], p c := by
    intro p hcalls hfresh c hc
    obtain hc | hc := List.mem_append.1 hc
    · exact hcalls c hc
    · rwa [List.mem_singleton.1 hc]
  refine ⟨?_, hs.idle, hmem hs.stages (.waiting rfl rfl rfl), hmem hs.thrifty ?_⟩
  · rw [List.countP_append, hs.active]
    rfl
  · exact ⟨1, f.run_spares op, Nat.le_refl 1⟩

theorem aside {d d' : Desk} {calls : List Call} (hs : Orderly f ⟨d, calls⟩)
    (h : d'.control = d.control) : Orderly f ⟨d', calls⟩ := by
  have hbusy : d'.busy = d.busy := congrArg Prod.fst h
  have hphase : d'.phase = d.phase := congrArg Prod.snd h
  refine ⟨?_, ?_, ?_, hs.thrifty⟩
  · rw [hs.active, hbusy]
  · rw [hbusy, hphase]
    exact hs.idle
  · rw [h]
    exact hs.stages

theorem countP_middle {p : Call → Bool} {before after : List Call} {c : Call} :
    (before ++ c :: after).countP p = (p c).toNat + (before ++ after).countP p := by
  rw [List.perm_middle.countP_eq, List.countP_cons, Nat.add_comm]
  cases p c <;> rfl

/-- What a step does to its call, to the flag and to the phase. -/
theorem move_call {d d' : Desk} {c : Call} {qs : List Question}
    {rest : Work (Except Fault Report)} (hc : c.Stage f d.control)
    (hstep : Job.Step c.rest d qs rest d') :
    (c.move qs rest).Stage f d'.control ∧
      (c.move qs rest).isActive.toNat + d.busy.toNat = c.isActive.toNat + d'.busy.toNat ∧
      (d'.busy = false → d'.phase = .idle) ∧
      (c.isActive = false → d.busy = true → d' = d) := by
  obtain ⟨hs, hbusy, heq⟩ | ⟨hs, hbusy, heq⟩ | ⟨hactive, hrest⟩ := hc.step_cases hstep
  · -- refused
    obtain ⟨rfl, rfl, rfl⟩ := heq
    have hasked : c.asked = [] := (hc.of_waiting hs).1
    have hinactive : c.isActive = false := by simp [Call.isActive, hs]
    refine ⟨.refused rfl (by simp [Call.move, hasked]) rfl, ?_, ?_, fun _ _ => rfl⟩
    · rw [hinactive]
      rfl
    · intro hdown
      simp [hbusy] at hdown
  · -- past the flag
    obtain ⟨rfl, rfl, rfl⟩ := heq
    have hinactive : c.isActive = false := by simp [Call.isActive, hs]
    have hup : Flow.Taken (d.setBusy true).control := rfl
    obtain ⟨hstage, hflag, hidle⟩ := Call.Stage.of_upholds (c := c.move [] (f.accepted c.operation))
      rfl (f.accepted_upholds c.operation hup)
    refine ⟨hstage, ?_, hidle, fun _ h => ?_⟩
    · rw [← hflag, hinactive, hbusy]
      rfl
    · simp [hbusy] at h
  · -- under way
    obtain ⟨hstage, hflag, hidle⟩ := Call.Stage.of_upholds (c := c.move qs rest) (f := f) rfl hrest
    have hbusy : d.busy = true := hc.taken hactive
    refine ⟨hstage, ?_, hidle, fun h => ?_⟩
    · rw [← hflag, hactive, hbusy]
      exact Nat.add_comm _ _
    · simp [hactive] at h

theorem move {d d' : Desk} {before after : List Call} {c : Call} {qs : List Question}
    {rest : Work (Except Fault Report)} (hs : Orderly f ⟨d, before ++ c :: after⟩)
    (hstep : Job.Step c.rest d qs rest d') :
    Orderly f ⟨d', before ++ c.move qs rest :: after⟩ := by
  have hmem : ∀ {c o : Call}, o ∈ before ++ c :: after ↔ o = c ∨ o ∈ before ++ after :=
    List.perm_middle.mem_iff.trans List.mem_cons
  have hcall : c.Stage f d.control := hs.stages c (hmem.2 (Or.inl rfl))
  obtain ⟨hstage, hcount, hidle, hframe⟩ := move_call hcall hstep
  have hactive : _ = d.busy.toNat := hs.active
  rw [countP_middle] at hactive
  refine ⟨?_, hidle, ?_, ?_⟩
  · rw [countP_middle]
    show _ = d'.busy.toNat
    omega
  · intro o ho
    obtain rfl | ho := hmem.1 ho
    · exact hstage
    have hother := hs.stages o (hmem.2 (Or.inr ho))
    cases hoactive : o.isActive with
    | false => exact hother.of_not_active hoactive
    | true =>
      -- the flag is up for another one, so that this one was refused
      have hbusy : d.busy = true := hother.taken hoactive
      have hpos : 0 < (before ++ after).countP Call.isActive :=
        List.countP_pos_iff.2 ⟨o, ho, hoactive⟩
      have hinactive : c.isActive = false := by
        cases h : c.isActive with
        | false => rfl
        | true => simp only [h, hbusy, Bool.toNat_true] at hactive; omega
      rw [hframe hinactive hbusy]
      exact hother
  · intro o ho
    obtain rfl | ho := hmem.1 ho
    · obtain ⟨n, hspares, hn⟩ := hs.thrifty c (hmem.2 (Or.inl rfl))
      obtain ⟨k, hspares', hk⟩ := hspares.step hstep
      refine ⟨k, hspares', ?_⟩
      rw [Call.move, List.countP_append]
      omega
    · exact hs.thrifty o (hmem.2 (Or.inr ho))

/-- **A step keeps the order.** -/
theorem step {s s' : Session} (hs : Orderly f s) (h : Step f s s') : Orderly f s' := by
  cases h with
  | call _ op => exact hs.call op
  | move h => exact hs.move h
  | aside h => exact hs.aside h

theorem any_isActive {s : Session} (hs : Orderly f s) :
    s.calls.any Call.isActive = s.desk.busy := by
  have hcount := hs.active
  cases hbusy : s.desk.busy with
  | true =>
    rw [hbusy] at hcount
    have hpos : 0 < s.calls.countP Call.isActive := hcount ▸ Nat.one_pos
    exact List.any_eq_true.2 (List.countP_pos_iff.1 hpos)
  | false =>
    rw [hbusy] at hcount
    exact List.any_eq_false.2 (List.countP_eq_zero.1 hcount)

end Orderly

/-- **Every session that may come to be is in order.** -/
theorem Reachable.orderly {f : Flow} {s : Session} (h : Reachable f s) : Orderly f s := by
  induction h with
  | start => exact orderly_start f
  | step _ hstep ih => exact ih.step hstep

/-! ## One run at a time -/

/-- **Runs take turns.** However the steps of the calls follow each other: at most one run is
    under way, and the flag is up exactly while one is; where none is, the phase is idle. No
    call hands the wallet more than one transaction. Only a call that finds another one under
    way ends with a fault, which says so: it asks nothing and leaves the desk as it is. Every
    other run ends with a report, the flag down and the phase idle, so that the next call gets
    past the flag. -/
theorem runs_take_turns {f : Flow} {s : Session} (h : Reachable f s) :
    s.calls.countP Call.isActive = s.desk.busy.toNat ∧
    (s.calls.countP Call.isActive = 0 → s.desk.phase = .idle) ∧
    (∀ c ∈ s.calls, c.sent.length ≤ 1) ∧
    (∀ c ∈ s.calls, ∀ fault, c.rest = .done (.error fault) →
      fault = .submissionInFlight ∧ c.asked = []) ∧
    (∀ c ∈ s.calls, c.isActive = true → ∀ qs r d, Job.Step c.rest s.desk qs (.done r) d →
      (∃ report, r = .ok report) ∧ d.busy = false ∧ d.phase = .idle) ∧
    ∀ c ∈ s.calls, c.started = false → c.asked = [] ∧ ∀ qs rest d,
      Job.Step c.rest s.desk qs rest d ↔ (qs, rest, d) =
        if s.calls.any Call.isActive then ([], .done (.error .submissionInFlight), s.desk)
        else ([], f.accepted c.operation, s.desk.setBusy true) := by
  have hs := h.orderly
  refine ⟨hs.active, fun hnone => hs.idle ?_, fun c hc => ?_, fun c hc fault hfault => ?_,
    fun c hc hactive qs r d hstep => ?_, fun c hc hwaiting => ?_⟩
  · rw [hs.active] at hnone
    cases hbusy : s.desk.busy <;> simp [hbusy] at hnone ⊢
  · obtain ⟨n, hspares, hn⟩ := hs.thrifty c hc
    have hasking := hspares.asking
    have hlength : c.sent.length = (c.asked ++ c.rest.asking).countP Question.handsOver :=
      List.length_filterMap_eq_countP
    rw [hlength, List.countP_append]
    omega
  · exact (hs.stages c hc).of_fault hfault
  · obtain ⟨hreport, hreleased⟩ := (hs.stages c hc).of_end hactive hstep
    exact ⟨hreport, congrArg Prod.fst hreleased, congrArg Prod.snd hreleased⟩
  · obtain ⟨hasked, hrest⟩ := (hs.stages c hc).of_waiting hwaiting
    refine ⟨hasked, fun qs rest d => ?_⟩
    rw [hrest, Flow.run_eq, step_act_iff, hs.any_isActive]
    cases hbusy : s.desk.busy with
    | true => rw [if_pos rfl, if_pos rfl, Desk.setBusy_self hbusy]
    | false => rw [if_neg Bool.false_ne_true, if_neg Bool.false_ne_true]

/-- With one call past the flag and one before it. -/
theorem runs_take_turns_two_calls :
    let f : Flow := ⟨⟨fun _ => none⟩, .standard, none, .outside, false⟩
    let first : Call := (Call.fresh f .stopUnstake).move [] (f.accepted .stopUnstake)
    let second : Call := .fresh f .register
    let d : Desk := Desk.fresh.setBusy true
    Reachable f ⟨d, [first, second]⟩ ∧ first.isActive = true ∧
      ∀ qs rest d', Job.Step second.rest d qs rest d' ↔
        (qs, rest, d') = ([], .done (.error .submissionInFlight), d) := by
  intro f first second d
  have hfirst : Job.Step (f.run .stopUnstake).run Desk.fresh [] (f.accepted .stopUnstake) d := by
    rw [Flow.run_eq]
    exact .act
  have hmove : Step f ⟨.fresh, [] ++ .fresh f .stopUnstake :: [second]⟩
      ⟨d, [] ++ first :: [second]⟩ := .move hfirst
  have hreachable : Reachable f ⟨d, [first, second]⟩ :=
    .step (.step (.step .start (.call _ .stopUnstake)) (.call _ .register)) hmove
  obtain ⟨-, -, -, -, -, hwaiting⟩ := runs_take_turns hreachable
  exact ⟨hreachable, rfl, (hwaiting second (by simp) rfl).2⟩

end Session

end LedgerClient
