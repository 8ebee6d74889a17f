/-
  Whether the last instruction of an accepted manifest is a deposit.

  * `Deposits account i`: the instruction hands the entire worktop to the account, by a method
    that deposits it;
  * `Instruction.rename` calls other methods with the same arguments. The audit cannot tell the
    two apart (`audit_rename`), for it looks at the address and the arguments of a call only;
  * `accepted_sweep_deposits_iff`: so the last instruction hands the entire worktop to the
    account, but need not deposit it.
-/
import LedgerClient.Proofs.Manifest.Audit

namespace LedgerClient.Manifest

/-! ## Deposits -/

/-- The instructions that deposit the entire worktop with the account. -/
inductive Deposits (account : AccountRef) : Instruction → Prop
  | batch {mode} : Deposits account (.depositBatch account.address mode)
  | call {mode : DepositMode} {args} : .expression .entireWorktop ∈ Value.leavesOf args →
      Deposits account (.callMethod account.address mode.method args)

/-- A sweep is a deposit unless it calls some other method. -/
theorem Sweeps.deposits_iff {account : AccountRef} {i : Instruction} (h : Sweeps account i) :
    Deposits account i ↔ ∀ address method args, i = .callMethod address method args →
      ∃ mode : DepositMode, method = mode.method := by
  constructor
  · rintro (_ | _) address method args he
    · cases he
    · obtain ⟨-, rfl, -⟩ := Instruction.callMethod.inj he
      exact ⟨_, rfl⟩
  · intro hmethod
    cases h with
    | deposit => exact .batch
    | call hw =>
      obtain ⟨mode, rfl⟩ := hmethod _ _ _ rfl
      exact .call hw

/-! ## Other methods -/

/-- The instruction with another method in the place of the one it calls. -/
def Instruction.rename (f : String → String) : Instruction → Instruction
  | callMethod address method args => callMethod address (f method) args
  | i => i

section Rename

variable (f : String → String)

theorem step_rename (index : Nat) (h : Holdings) (i : Instruction) :
    h.step index (i.rename f) = h.step index i := by
  cases i <;> rfl

theorem run_rename (index : Nat) (h : Holdings) (m : Manifest) :
    h.run index (m.map (Instruction.rename f)) = h.run index m := by
  induction m generalizing index h with
  | nil => rfl
  | cons i is ih => simp only [List.map_cons, Holdings.run, step_rename, ih]

theorem finish_rename (h : Holdings) (initiator : AccountRef) (last : Option Instruction) :
    h.finish initiator (last.map (Instruction.rename f)) = h.finish initiator last := by
  rcases last with _ | i
  · rfl
  · cases i <;> rfl

/-- **The audit looks at no method.** -/
theorem audit_rename (m : Manifest) (initiator : AccountRef) :
    audit (m.map (Instruction.rename f)) initiator = audit m initiator := by
  simp only [audit, run_rename, List.getLast?_map, finish_rename]

theorem Instruction.rename_rename (g : String → String) (i : Instruction) :
    (i.rename g).rename f = i.rename (f ∘ g) := by
  cases i <;> rfl

end Rename

/-- **A sweep that the audit accepts need not be a deposit.** What may be left on the worktop is
    handed to the account by the last instruction. It is deposited there unless that instruction
    calls another method than those for deposits, and the audit accepts any method in the place
    of the one that is called. -/
theorem accepted_sweep_deposits_iff (m : Manifest) (initiator : AccountRef)
    (haccepted : audit m initiator = .ok ()) (hfills : ∃ i ∈ m, Fills i) :
    ∃ before last, m = before ++ [last] ∧ Sweeps initiator last ∧
      (Deposits initiator last ↔ ∀ address method args, last = .callMethod address method args →
        ∃ mode : DepositMode, method = mode.method) ∧
      ∀ method, audit (before ++ [last.rename fun _ => method]) initiator = .ok () := by
  have hbalanced := balanced_iff.2 ((decides_audit m initiator).ok_iff.1 ⟨(), haccepted⟩)
  obtain ⟨last, hlast, hsweeps⟩ := hbalanced.swept hfills
  obtain ⟨before, rfl⟩ := List.getLast?_eq_some_iff.1 hlast
  refine ⟨before, last, rfl, hsweeps, hsweeps.deposits_iff, fun method => ?_⟩
  -- with one and the same method in all calls, the two manifests are the same
  have hsame : (before ++ [last.rename fun _ => method]).map (Instruction.rename fun _ => "") =
      (before ++ [last]).map (Instruction.rename fun _ => "") := by
    simp only [List.map_append, List.map_cons, Instruction.rename_rename]
    rfl
  rw [← audit_rename fun _ => "", hsame, audit_rename, haccepted]

/-- Also where the worktop lies deep in the argument of a call that takes an amount out of the
    account. -/
theorem accepted_sweep_deposits_iff_nested :
    let account : AccountRef := ⟨"account_rdx1qqqqqq", by decide, by decide⟩
    let m : Manifest := [.withdraw account.address "resource_rdx1qqqqqq" ⟨1, by decide⟩,
      .callMethod account.address "withdraw" [.tuple [Value.present .entireWorktop]]]
    audit m account = .ok () ∧ (∃ i ∈ m, Fills i) ∧
      ∃ before last, m = before ++ [last] ∧ Sweeps account last ∧
        (Deposits account last ↔ ∀ address method args, last = .callMethod address method args →
          ∃ mode : DepositMode, method = mode.method) ∧
        ∀ method, audit (before ++ [last.rename fun _ => method]) account = .ok () := by
  intro account m
  have haccepted : audit m account = .ok () := rfl
  have hfills : ∃ i ∈ m, Fills i := ⟨_, List.mem_cons_self, .withdraw⟩
  exact ⟨haccepted, hfills, accepted_sweep_deposits_iff m account haccepted hfills⟩

/-- So what is withdrawn may be handed to a method that withdraws more. -/
theorem accepted_sweep_withdraws :
    let account : AccountRef := ⟨"account_rdx1qqqqqq", by decide, by decide⟩
    let m : Manifest := [.withdraw account.address "resource_rdx1qqqqqq" ⟨1, by decide⟩,
      .callMethod account.address "withdraw" [.entireWorktop]]
    audit m account = .ok () ∧ (∃ i ∈ m, Fills i) ∧
      ∀ i, m.getLast? = some i → ¬Deposits account i := by
  intro account m
  refine ⟨rfl, ⟨_, List.mem_cons_self, .withdraw⟩, ?_⟩
  rintro i hi hdeposits
  obtain rfl : Instruction.callMethod account.address "withdraw" [.entireWorktop] = i :=
    Option.some.inj hi
  have hsweeps : Sweeps account (.callMethod account.address "withdraw" [.entireWorktop]) :=
    .call (List.mem_singleton_self _)
  obtain ⟨mode, hmode⟩ := hsweeps.deposits_iff.1 hdeposits _ _ _ rfl
  cases mode <;> simp [DepositMode.method] at hmode

end LedgerClient.Manifest
