/-
  Reading several entities.

  * `g.Reads address result` says what a gateway tells of one address, and why it does not;
  * `Joins alone addresses result`: all that is read, in order, or the fault of one address that
    cannot be read;
  * `Batch` is a number of reads side by side, each at its own point; `Batch.Step` lets one of
    them take a step, at any time and in any order, and `Batch.Ends` says when they are over;
  * `entities_read_together`: several entities are all read or none, whether one after the other
    or side by side.
-/
import LedgerClient.DryRun.World
import LedgerClient.Ledger
import LedgerClient.Proofs.Job.Record
import Mathlib.Data.List.Forall2

namespace LedgerClient

open DryRun Job

/-! ## One entity -/

/-- What a gateway tells of one address. -/
inductive DryRun.Gateway.Reads (g : Gateway) (address : String) : Except Fault Entity → Prop
  | failing (h : address ∈ g.failing) :
      Reads g address (.error (.networkFailure (.own ("mock failure for " ++ address))))
  /-- The words are those of the reader of the description. -/
  | unreadable {body : Json} {why : String} (h : address ∉ g.failing)
      (hbody : g.entities.lookup address = some body) (hread : Entity.ofJson? body = none) :
      Reads g address (.error (.schemaMismatch address "gateway response" (.quoted why)))
  | unknown (h : address ∉ g.failing) (hbody : g.entities.lookup address = none) :
      Reads g address (.error (.schemaMismatch "items" address "missing"))
  /-- The description is that of another address. -/
  | elsewhere {body : Json} {item : Entity} (h : address ∉ g.failing)
      (hbody : g.entities.lookup address = some body) (hread : Entity.ofJson? body = some item)
      (haddress : item.address ≠ address) :
      Reads g address (.error (.schemaMismatch "items" address "missing"))
  | found {body : Json} {item : Entity} (h : address ∉ g.failing)
      (hbody : g.entities.lookup address = some body) (hread : Entity.ofJson? body = some item)
      (haddress : item.address = address) : Reads g address (.ok item)

theorem DryRun.Gateway.Reads.address_eq {g : Gateway} {address : String} {item : Entity}
    (h : g.Reads address (.ok item)) : item.address = address := by
  cases h with
  | found _ _ _ haddress => exact haddress

namespace Ledger

/-- What is told of one address in a world. -/
def told (w : World) (address : String) : Except Fault Entity :=
  (w.gateway.describe [address]).bind (select address)

theorem entity_eq (address : String) :
    (entity address).run =
      .ask (.entities [address]) fun answer => .done (answer.bind (select address)) := by
  rw [entity, run_bind_eq]
  show Job.ask _ _ = _
  congr 1
  funext answer
  cases answer with
  | ok items => exact run_liftM_eq (select address items)
  | error fault => rfl

theorem select_singleton (address : String) (item : Entity) :
    select address [item] = if item.address = address then .ok item
      else .error (.schemaMismatch "items" address "missing") := by
  by_cases h : item.address = address <;> simp [select, h]

theorem reads_told (w : World) (address : String) : w.gateway.Reads address (told w address) := by
  by_cases hfailing : address ∈ w.gateway.failing
  · have hcheck : w.gateway.check address =
        .error (.networkFailure (.own ("mock failure for " ++ address))) :=
      if_pos (List.contains_iff_mem.2 hfailing)
    rw [told, Gateway.describe, hcheck]
    exact .failing hfailing
  · have hcheck : w.gateway.check address = .ok () :=
      if_neg fun h => hfailing (List.contains_iff_mem.1 h)
    rw [told, Gateway.describe, hcheck]
    cases hbody : w.gateway.entities.lookup address with
    | none => exact .unknown hfailing hbody
    | some body =>
      cases hread : Entity.ofJson? body with
      | none =>
        simp only [Gateway.decode, hread]
        exact .unreadable hfailing hbody hread
      | some item =>
        simp only [Gateway.decode, hread]
        show w.gateway.Reads address (select address [item])
        by_cases haddress : item.address = address
        · rw [select_singleton, if_pos haddress]
          exact .found hfailing hbody hread haddress
        · rw [select_singleton, if_neg haddress]
          exact .elsewhere hfailing hbody hread haddress

theorem ending_entity (address : String) (d : Desk) (w : World) :
    (entity address).run.ending World.outside.answer d w =
      ⟨told w address, d, (World.outside.answer (.entities [address]) w).2,
        [.entities [address]]⟩ := by
  rw [entity_eq]
  rfl

/-! ## All or none -/

/-- What reading several entities comes to: all that is read of them alone, in order, or the fault
    of one that cannot be read. -/
def Joins (alone : String → Except Fault Entity) (addresses : List String) :
    Except Fault (List Entity) → Prop
  | .ok items => List.Forall₂ (fun address item => alone address = .ok item) addresses items
  | .error fault => ∃ address ∈ addresses, alone address = .error fault

namespace Joins

variable {alone : String → Except Fault Entity} {address : String} {addresses : List String}

theorem cons {item : Entity} {result : Except Fault (List Entity)} (h : alone address = .ok item)
    (hrest : Joins alone addresses result) :
    Joins alone (address :: addresses) (result.map (item :: ·)) := by
  cases result with
  | ok items => exact List.Forall₂.cons h hrest
  | error fault =>
    obtain ⟨other, hmem, hfault⟩ := hrest
    exact ⟨other, List.mem_cons_of_mem _ hmem, hfault⟩

/-- There is a result where every single one can be read, and else there is none. -/
theorem exists_ok_iff {result : Except Fault (List Entity)} (h : Joins alone addresses result) :
    (∃ items, result = .ok items) ↔ ∀ address ∈ addresses, ∃ item, alone address = .ok item := by
  cases result with
  | ok items =>
    refine iff_of_true ⟨items, rfl⟩ fun address hmem => ?_
    obtain ⟨i, hi, rfl⟩ := List.getElem_of_mem hmem
    have hlength : addresses.length = items.length := List.Forall₂.length_eq h
    exact ⟨items[i], List.Forall₂.get h hi (hlength ▸ hi)⟩
  | error fault =>
    obtain ⟨address, hmem, hfault⟩ := h
    refine iff_of_false nofun fun hall => ?_
    obtain ⟨item, hitem⟩ := hall address hmem
    simp [hfault] at hitem

end Joins

/-- Every entity that is read is the one of its address. -/
theorem addresses_eq {w : World} {addresses : List String} {items : List Entity}
    (h : List.Forall₂ (fun address item => told w address = .ok item) addresses items) :
    items.map (·.address) = addresses := by
  rw [← List.forall₂_eq_eq_eq, List.forall₂_map_left_iff]
  refine h.flip.imp fun item address htold => ?_
  have hreads := reads_told w address
  rw [htold] at hreads
  exact hreads.address_eq

/-! ## One after the other -/

theorem entities_cons (address : String) (addresses : List String) (d : Desk) (w : World) :
    ((entities (address :: addresses)).run.ending World.outside.answer d w).result =
      (told w address).bind fun item =>
        ((entities addresses).run.ending World.outside.answer d
          (World.outside.answer (.entities [address]) w).2).result.map (item :: ·) := by
  rw [entities, List.mapM_cons, run_bind_eq, ending_bind, ending_entity]
  cases told w address with
  | error fault => rfl
  | ok item =>
    dsimp only [proceed]
    rw [run_bind_eq, ending_bind]
    show (ending _ (proceed _ _) _ _).result =
      Except.map _ (ending _ (entities addresses).run _ _).result
    rw [entities]
    cases (ending _ (List.mapM entity addresses).run _ _).result <;> rfl

/-- **Entities that are read one after the other are all read or none.** -/
theorem joins_entities (addresses : List String) (d : Desk) (w : World) :
    Joins (told w) addresses ((entities addresses).run.ending World.outside.answer d w).result := by
  induction addresses generalizing w with
  | nil => exact .nil
  | cons address addresses ih =>
    rw [entities_cons]
    cases htold : told w address with
    | error fault => exact ⟨address, List.mem_cons_self, htold⟩
    | ok item => exact .cons htold (ih (World.outside.answer (.entities [address]) w).2)

/-! ## Side by side -/

/-- A number of reads on one desk, in one world. -/
structure Batch where
  desk : Desk
  world : World
  /-- What is left to do of each read. -/
  reads : List (Work (Except Fault Entity))

namespace Batch

/-- The reads of these addresses before their first steps. -/
def start (addresses : List String) (d : Desk) (w : World) : Batch :=
  ⟨d, w, addresses.map fun address => (entity address).run⟩

/-- One of the reads takes a step. -/
inductive Step : Batch → Batch → Prop
  | act {d : Desk} {w : World} {change : Desk → Desk} {next : Desk → Work (Except Fault Entity)}
      {before after : List (Work (Except Fault Entity))} :
      Step ⟨d, w, before ++ .act change next :: after⟩ ⟨change d, w, before ++ next d :: after⟩
  | ask {d : Desk} {w : World} {q : Question} {next : q.Answer → Work (Except Fault Entity)}
      {before after : List (Work (Except Fault Entity))} :
      Step ⟨d, w, before ++ .ask q next :: after⟩
        ⟨d, (World.outside.answer q w).2, before ++ next (World.outside.answer q w).1 :: after⟩

/-- What may become of the reads of these addresses, in any order of their steps. -/
inductive Reachable (addresses : List String) (d : Desk) (w : World) : Batch → Prop
  | start : Reachable addresses d w (start addresses d w)
  | step {b b' : Batch} : Reachable addresses d w b → Step b b' → Reachable addresses d w b'

/-- The reads are over when all of them have a result, or as soon as one of them has a fault. -/
inductive Ends (b : Batch) : Except Fault (List Entity) → Prop
  | all {items : List Entity} (h : b.reads = items.map fun item => .done (.ok item)) :
      Ends b (.ok items)
  | fault {fault : Fault} (h : .done (.error fault) ∈ b.reads) : Ends b (.error fault)

/-- One of a list of related members may be replaced by another that is related as well. -/
theorem exists_replace {α β : Type} {R : α → β → Prop} {xs : List α} {before after : List β}
    {y : β} (h : List.Forall₂ R xs (before ++ y :: after)) :
    ∃ x ∈ xs, R x y ∧ ∀ y', R x y' → List.Forall₂ R xs (before ++ y' :: after) := by
  induction before generalizing xs with
  | nil =>
    cases h with
    | cons hxy hrest => exact ⟨_, List.mem_cons_self, hxy, fun _ h' => .cons h' hrest⟩
  | cons z before ih =>
    cases h with
    | cons hxz hrest =>
      obtain ⟨x, hmem, hxy, hreplace⟩ := ih hrest
      exact ⟨x, List.mem_cons_of_mem _ hmem, hxy, fun y' h' => .cons hxz (hreplace y' h')⟩

/-- A read has not begun, or has come to what is told of its address. -/
def Stage (w : World) (address : String) (read : Work (Except Fault Entity)) : Prop :=
  read = (entity address).run ∨ read = .done (told w address)

/-- Every read is at its stage, and nothing has changed of what is told. -/
structure Orderly (addresses : List String) (w : World) (b : Batch) : Prop where
  stages : List.Forall₂ (Stage w) addresses b.reads
  world : told b.world = told w

variable {addresses : List String} {d : Desk} {w : World} {b b' : Batch}

theorem orderly_start : Orderly addresses w (start addresses d w) where
  stages := List.forall₂_map_right_iff.2 (List.forall₂_same.2 fun _ _ => .inl rfl)
  world := rfl

/-- The only step of a read is to be told. -/
theorem Orderly.step (h : Orderly addresses w b) (hstep : Step b b') : Orderly addresses w b' := by
  cases hstep with
  | act =>
    obtain ⟨address, -, hstage | hstage, -⟩ := exists_replace h.stages
    · rw [entity_eq] at hstage
      cases hstage
    · cases hstage
  | @ask d world q next before after =>
    obtain ⟨address, -, hstage | hstage, hreplace⟩ := exists_replace h.stages
    · rw [entity_eq] at hstage
      cases hstage
      refine ⟨hreplace _ (.inr ?_), h.world⟩
      rw [← h.world]
      rfl
    · cases hstage

theorem Reachable.orderly (h : Reachable addresses d w b) : Orderly addresses w b := by
  induction h with
  | start => exact orderly_start
  | step _ hstep ih => exact ih.step hstep

theorem Orderly.joins (h : Orderly addresses w b) {result : Except Fault (List Entity)}
    (hends : b.Ends result) : Joins (told w) addresses result := by
  have hstages := h.stages
  cases hends with
  | all hall =>
    rw [hall, List.forall₂_map_right_iff] at hstages
    refine hstages.imp fun address item hstage => ?_
    obtain hstage | hstage := hstage
    · rw [entity_eq] at hstage
      cases hstage
    · injection hstage with htold
      exact htold.symm
  | fault hfault =>
    obtain ⟨before, after, hsplit⟩ := List.append_of_mem hfault
    rw [hsplit] at hstages
    obtain ⟨address, hmem, hstage | hstage, -⟩ := exists_replace hstages
    · rw [entity_eq] at hstage
      cases hstage
    · injection hstage with htold
      exact ⟨address, hmem, htold.symm⟩

theorem reads_eq {reads : List (Work (Except Fault Entity))}
    (h : List.Forall₂ (Stage w) addresses reads)
    (hbegun : ∀ address, (entity address).run ∉ reads) :
    reads = addresses.map fun address => .done (told w address) := by
  induction h with
  | nil => rfl
  | @cons address read addresses reads hstage _ ih =>
    obtain rfl | rfl := hstage
    · exact absurd List.mem_cons_self (hbegun address)
    · rw [ih fun other hmem => hbegun other (List.mem_cons_of_mem _ hmem), List.map_cons]

/-- Reads that have all been told are over. -/
theorem exists_ends (d : Desk)
    (hdone : b.reads = addresses.map fun address => .done (told w address)) :
    ∃ result, b.Ends result := by
  have hjoins := joins_entities addresses d w
  cases hresult : ((entities addresses).run.ending World.outside.answer d w).result with
  | ok items =>
    rw [hresult] at hjoins
    refine ⟨.ok items, .all ?_⟩
    rw [hdone, ← List.forall₂_eq_eq_eq, List.forall₂_map_left_iff, List.forall₂_map_right_iff]
    exact List.Forall₂.imp (fun address item htold => congrArg Job.done htold) hjoins
  | error fault =>
    rw [hresult] at hjoins
    obtain ⟨address, hmem, htold⟩ := hjoins
    refine ⟨.error fault, .fault ?_⟩
    rw [hdone]
    exact List.mem_map.2 ⟨address, hmem, congrArg Job.done htold⟩

/-- Reads that are not over can go on. -/
theorem Orderly.ends_or_steps (h : Orderly addresses w b) :
    (∃ result, b.Ends result) ∨ ∃ b', Step b b' := by
  by_cases hwaiting : ∃ address, (entity address).run ∈ b.reads
  · obtain ⟨address, hmem⟩ := hwaiting
    obtain ⟨before, after, hsplit⟩ := List.append_of_mem hmem
    rw [entity_eq] at hsplit
    obtain ⟨d, world, reads⟩ := b
    subst hsplit
    exact .inr ⟨_, .ask⟩
  · exact .inl (exists_ends .fresh (reads_eq h.stages (not_exists.1 hwaiting)))

end Batch

/-- **Several entities are all read or none**, in order, whether one after the other or side by
    side. -/
theorem entities_read_together (addresses : List String) (d : Desk) (w : World) :
    let alone := fun address => ((entity address).run.ending World.outside.answer d w).result
    let together := ((entities addresses).run.ending World.outside.answer d w).result
    (∀ address, w.gateway.Reads address (alone address)) ∧
    Joins alone addresses together ∧
    ((∃ items, together = .ok items) ↔
      ∀ address ∈ addresses, ∃ item, alone address = .ok item) ∧
    (∀ items, together = .ok items → items.map (·.address) = addresses) ∧
    ∀ b, Batch.Reachable addresses d w b →
      (∀ result, b.Ends result → Joins alone addresses result) ∧
      ((∃ result, b.Ends result) ∨ ∃ b', b.Step b') := by
  intro alone together
  have halone : alone = told w := by
    funext address
    show (ending _ _ _ _).result = _
    rw [ending_entity]
  rw [halone]
  have hjoins : Joins (told w) addresses together := joins_entities addresses d w
  refine ⟨reads_told w, hjoins, hjoins.exists_ok_iff, fun items hitems => ?_, fun b hb =>
    ⟨fun result hends => hb.orderly.joins hends, hb.orderly.ends_or_steps⟩⟩
  rw [hitems] at hjoins
  exact addresses_eq hjoins

/-- An address that is read twice, and one that fails before the others are read. -/
theorem entities_read_together_repeated :
    let ok : Entity := ⟨"component_tdx_2_1ok", none, none, none⟩
    let gateway : Gateway := { Gateway.empty with
      entities := [(ok.address, .obj [("address", .str ok.address)])],
      failing := ["component_tdx_2_1down"] }
    let w : World := ⟨0, .sharing [] 0, gateway, .memory none, 0, false⟩
    let fault : Fault := .networkFailure (.own "mock failure for component_tdx_2_1down")
    let b : Batch := ⟨.fresh, (World.outside.answer (.entities ["component_tdx_2_1down"]) w).2,
      [(entity ok.address).run, .done (.error fault)]⟩
    ((entities [ok.address, ok.address]).run.ending World.outside.answer .fresh w).result =
        .ok [ok, ok] ∧
      [ok, ok].map (·.address) = [ok.address, ok.address] ∧
      Batch.Reachable [ok.address, "component_tdx_2_1down"] .fresh w b ∧
      b.Ends (.error fault) ∧
      Joins (fun address => ((entity address).run.ending World.outside.answer .fresh w).result)
        [ok.address, "component_tdx_2_1down"] (.error fault) := by
  intro ok gateway w fault b
  have htwice :
      ((entities [ok.address, ok.address]).run.ending World.outside.answer .fresh w).result =
        .ok [ok, ok] := rfl
  have hstep : Batch.Step (.start [ok.address, "component_tdx_2_1down"] .fresh w) b :=
    @Batch.Step.ask .fresh w (.entities ["component_tdx_2_1down"]) _ [(entity ok.address).run] []
  have hreachable : Batch.Reachable [ok.address, "component_tdx_2_1down"] .fresh w b :=
    .step .start hstep
  have hends : b.Ends (.error fault) := .fault (List.mem_cons_of_mem _ List.mem_cons_self)
  obtain ⟨-, -, -, haddresses, -⟩ := entities_read_together [ok.address, ok.address] .fresh w
  obtain ⟨-, -, -, -, hbatch⟩ :=
    entities_read_together [ok.address, "component_tdx_2_1down"] .fresh w
  exact ⟨htwice, haddresses _ htwice, hreachable, hends, (hbatch b hreachable).1 _ hends⟩

end Ledger

end LedgerClient
