/-
  What building an operation gives.

  * `build_yields`: an operation is built as an expansion that fits it, or a
    fault says what is missing;
  * `build_conserves`: what is withdrawn is handed to the first call, and no more
    is taken off the worktop than is there;
  * `build_ok_iff_ready`: an operation is built exactly where nothing is missing.
-/
import LedgerClient.Proofs.Operation.Calls

namespace LedgerClient.Operation

open Manifest

/-- An operation is built as an expansion that fits it, where nothing is missing,
    and otherwise the fault says what is. -/
theorem build_yields (account : AccountRef) (book : AddressBook) (op : Operation) :
    Yields (op.build account book) (Obstacle account book op) fun m =>
      Ready account book op ∧ ∃ e : Expansion, e.Fits book op ∧ m = stepsOf account e.calls := by
  rw [build]
  refine (calls_yields account book op).bind ?_
  rintro _ ⟨e, hfits, rfl⟩
  refine (e.buildCalls_yields account).mono ?_ ?_
  · rintro _ ⟨a, rfl | ha, hs, rfl⟩
    · exact .account hs
    · exact .shape ((hfits.addresses a).1 ha) hs
  · rintro m ⟨rfl, hshape⟩
    refine ⟨⟨hfits.slots, hshape _ (Or.inl rfl), fun a ha => ?_, hfits.sums⟩, e, hfits, rfl⟩
    exact hshape a (Or.inr ((hfits.addresses a).2 ha))

theorem exists_build {account : AccountRef} {book : AddressBook} {op : Operation}
    (hready : Ready account book op) : ∃ m, op.build account book = .ok m := by
  cases hr : op.build account book with
  | ok m => exact ⟨m, rfl⟩
  | error fault => exact absurd hready ((build_yields account book op).error hr).not_ready

/-- What is built passes the audit. -/
theorem audit_of_build {account : AccountRef} {book : AddressBook} {op : Operation} {m : Manifest}
    (h : op.build account book = .ok m) : audit m account = .ok () := by
  obtain ⟨-, e, -, rfl⟩ := (build_yields account book op).result h
  exact e.audit_eq account

/-! ## Conservation -/

/-- What the buckets of the first call are to hold. -/
def stated (book : AddressBook) (op : Operation) : List (Option Content) :=
  (op.handsOver book).map fun h => h.1.map fun r => ⟨r, h.2.atto⟩

/-- The units of a resource that are handed to the first call. -/
def statedUnits (book : AddressBook) (op : Operation) (resource : String) : Nat :=
  ((op.handsOver book).map fun h => if h.1 = some resource then h.2.atto else 0).sum

namespace Expansion.Fits

variable {e : Expansion} {book : AddressBook} {op : Operation} (h : e.Fits book op)

include h

theorem stated_eq : op.stated book = e.handed.map fun p => some p.content := by
  rw [stated, ← h.handed, List.map_map]
  rfl

theorem statedUnits_eq (r : String) :
    op.statedUnits book r = unitsIn (e.handed.map Portion.content) r := by
  rw [statedUnits, ← h.handed, List.map_map, unitsIn, List.map_map]
  refine congrArg List.sum (List.map_congr_left fun p _ => ?_)
  by_cases hr : p.resource = r <;> simp [Portion.content, hr]

end Expansion.Fits

/-- **Operations conserve value.** Up to the first call of a method no more is taken off
    the worktop than is there, and all that is withdrawn is handed to this call: nothing is
    left on the worktop, and the buckets of the call hold the amounts that are stated. -/
theorem build_conserves {account : AccountRef} {book : AddressBook} {op : Operation} {m : Manifest}
    (h : op.build account book = .ok m) :
    ∃ (before after : Manifest) (target method : String) (args : List Value) (w : Worktop),
      m = before ++ .callMethod target method args :: after ∧
      (∀ i ∈ before, ∀ t f vs, i ≠ .callMethod t f vs) ∧
      Worktop.empty.run before = some w ∧
      (∀ r, w.units r = 0) ∧
      (Value.bucketsOf args).map w.bucket? = op.stated book ∧
      ∀ r, withdrawn before r = op.statedUnits book r := by
  obtain ⟨-, e, hfits, rfl⟩ := (build_yields account book op).result h
  refine ⟨e.before account, e.after account, e.target, e.method, e.args, _, e.stepsOf_eq account,
    ?_, e.run_before account, fun _ => rfl, ?_, fun r => ?_⟩
  · rintro i hi t f vs rfl
    cases gathers_of_mem account e.pieces _ hi
  · rw [e.buckets_filled, hfits.stated_eq]
  · rw [e.withdrawn_before, hfits.statedUnits_eq]

/-- Also where the badge to be listed is what the fee is paid in. -/
theorem build_conserves_one_resource :
    let account : AccountRef := ⟨"account_rdx1qqqqqq", by decide, by decide⟩
    let book : AddressBook := ⟨fun _ => some "resource_rdx1qqqqqq"⟩
    let op := listOnMarketplace 7 (.ofWhole 3 (by decide)) (.ofWhole 2 (by decide))
    ∃ m, op.build account book = .ok m ∧
      ∃ before after target method args w,
        m = before ++ .callMethod target method args :: after ∧
        Worktop.empty.run before = some w ∧ (∀ r, w.units r = 0) ∧
        (Value.bucketsOf args).map w.bucket? =
          [some ⟨"resource_rdx1qqqqqq", 3 * tenTo 18⟩, some ⟨"resource_rdx1qqqqqq", 2 * tenTo 18⟩] ∧
        withdrawn before "resource_rdx1qqqqqq" = 5 * tenTo 18 := by
  intro account book op
  have hready : Ready account book op :=
    ⟨fun _ _ => rfl, by decide, by decide, by decide⟩
  obtain ⟨m, h⟩ := exists_build hready
  obtain ⟨before, after, target, method, args, w, hm, -, hrun, hunits, hbuckets, hwithdrawn⟩ :=
    build_conserves h
  exact ⟨m, h, before, after, target, method, args, w, hm, hrun, hunits, hbuckets,
    (hwithdrawn _).trans (by decide)⟩

/-! ## Success and failure -/

/-- **An operation is built exactly where nothing is missing**, the fault says what is, and
    what is built sweeps the worktop into the account and passes the audit. -/
theorem build_ok_iff_ready (account : AccountRef) (book : AddressBook) (op : Operation) :
    ((∃ m, op.build account book = .ok m) ↔ Ready account book op) ∧
    (∀ fault, op.build account book = .error fault →
      Obstacle account book op fault ∧
        fault.kind ∈ ["Config", "InvalidAddress", "InvalidAmount"]) ∧
    ∀ m, op.build account book = .ok m →
      (∃ mode, m.getLast? = some (.depositBatch account.address mode)) ∧
        audit m account = .ok () := by
  have hbuild := build_yields account book op
  refine ⟨⟨fun ⟨m, hm⟩ => (hbuild.result hm).1, exists_build⟩, fun fault hf => ?_, fun m hm => ?_⟩
  · exact ⟨hbuild.error hf, (hbuild.error hf).kind_mem⟩
  · obtain ⟨-, e, -, rfl⟩ := hbuild.result hm
    exact ⟨⟨e.mode, e.getLast?_steps account⟩, e.audit_eq account⟩

end LedgerClient.Operation
