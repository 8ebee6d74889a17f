/-
  Expansions: the calls of an operation, put together from pieces.

  * an `Expansion` gathers what a call is to be handed, makes this call and
    sweeps the worktop at the end. It carries the proofs that all it gathers is
    handed over, and that no name is claimed twice;
  * `Expansion.wellNamed`: the builder can refuse it over an address only;
  * `Expansion.balanced`: it leaves nothing behind;
  * `Expansion.run_gather`: its call is made with the worktop empty and the
    stated amounts in the buckets.
-/
import LedgerClient.Proofs.Operation.Pieces
import Mathlib.Data.List.Induction
import Mathlib.Data.List.Nodup
import Mathlib.Data.List.Perm.Basic

namespace LedgerClient.Operation

open Manifest

/-! ## The life of proofs that are introduced and then used -/

theorem live_iff {qs us : List String} {p : String} :
    Live (qs.map .introduce ++ us.map .use) p ↔ p ∈ qs ∧ p ∉ us := by
  induction us using List.reverseRecOn with
  | nil =>
    rw [List.map_nil, List.append_nil]
    induction qs using List.reverseRecOn with
    | nil => simp [Live]
    | append_singleton qs q ih =>
      rw [List.map_append, List.map_singleton, live_snoc, ih]
      simp [eq_comm, or_comm]
  | append_singleton us u ih =>
    rw [List.map_append, List.map_singleton, ← List.append_assoc, live_snoc, ih]
    simp [eq_comm, and_assoc]

theorem allowed_introduce_use {ps : List String} (h : ps.Nodup) :
    AtEach Allowed (ps.map .introduce ++ ps.map .use) := by
  rw [AtEach.append_iff, AtEach.map_iff, AtEach.map_iff]
  constructor
  · refine (AtEach.congr (fun before p => ?_) ps).2 (AtEach.nodup_iff.2 h)
    have hlive := @live_iff before [] p
    rw [List.map_nil, List.append_nil] at hlive
    simp [Allowed, hlive]
  · refine (AtEach.congr (fun before p => live_iff) ps).2 ?_
    exact AtEach.and_iff.2 ⟨AtEach.const_iff.2 fun _ hp => hp, AtEach.nodup_iff.2 h⟩

/-! ## Expansions -/

/-- The calls of an operation. -/
structure Expansion where
  pieces : List Piece
  target : String
  method : String
  args : List Value
  /-- The methods of the target that are called with the entire worktop afterwards. -/
  further : List String := []
  mode : DepositMode := .deposit
  /-- What the call is handed, in the order of its arguments. -/
  handed : List Portion := portions pieces
  handed_perm : handed.Perm (portions pieces) := by first | exact .refl _ | exact .swap _ _ _
  buckets_args : Value.bucketsOf args = handed.map Portion.bucket := by rfl
  proofs_args : Value.proofsOf args = proofs pieces := by rfl
  names_nodup : (pieces.flatMap Piece.names).Nodup := by
    simp [Piece.names, Piece.portions, Piece.proofs]
  names_ne : "" ∉ pieces.flatMap Piece.names := by
    simp [Piece.names, Piece.portions, Piece.proofs]

namespace Expansion

variable (e : Expansion) (account : AccountRef)

/-- The calls after the first one of a method. -/
def rest : List Call :=
  e.further.map (fun method => .callMethod e.target method [.entireWorktop]) ++ [.deposit e.mode]

/-- The calls in order. -/
def calls : List Call :=
  gather e.pieces ++ .callMethod e.target e.method e.args :: e.rest

/-- The addresses in the calls, that of the account aside. -/
def addresses : List String :=
  e.pieces.flatMap Piece.addresses ++ e.target :: Value.addressesOf e.args

theorem names_perm :
    ((portions e.pieces).map Portion.bucket ++ proofs e.pieces).Perm
      (e.pieces.flatMap Piece.names) := by
  rw [portions, proofs, List.map_flatMap]
  exact List.flatMap_append_perm _ _ _

theorem buckets_nodup : ((portions e.pieces).map Portion.bucket).Nodup :=
  (e.names_perm.nodup_iff.2 e.names_nodup).of_append_left

theorem proofs_nodup : (proofs e.pieces).Nodup :=
  (e.names_perm.nodup_iff.2 e.names_nodup).of_append_right

theorem buckets_args_perm :
    (Value.bucketsOf e.args).Perm ((portions e.pieces).map Portion.bucket) := by
  rw [e.buckets_args]
  exact e.handed_perm.map _

/-! ## Checks of the builder -/

/-- The checks of the builder after the pieces. -/
def restChecks : List Check :=
  (Call.callMethod e.target e.method e.args :: e.rest).flatMap Call.checks

theorem checksOf_eq :
    checksOf account e.calls = .address account.address :: (checks e.pieces ++ e.restChecks) := by
  rw [checksOf, calls, List.flatMap_append, restChecks, checks]

theorem mem_restChecks {c : Check} : c ∈ e.restChecks ↔
    c = .address e.target ∨ c ∈ (Value.leavesOf e.args).filterMap Value.check? := by
  simp only [restChecks, rest, List.flatMap_cons, Call.checks, List.flatMap_append,
    List.flatMap_map, List.flatMap_nil, List.cons_append, List.mem_cons, List.mem_append,
    List.mem_flatMap]
  constructor
  · rintro (h | h | ⟨_, -, h⟩ | h)
    · exact Or.inl h
    · exact Or.inr h
    · refine Or.inl ?_
      simpa [Value.leavesOf, Value.leaves, Value.entireWorktop, Value.check?] using h
    · simp at h
  · rintro (h | h)
    · exact Or.inl h
    · exact Or.inr (Or.inl h)

theorem claimed_restChecks : claimed e.restChecks = [] := by
  refine List.filterMap_eq_nil_iff.2 fun c hc => ?_
  rcases e.mem_restChecks.1 hc with rfl | hc
  · rfl
  · obtain ⟨v, -, hv⟩ := List.mem_filterMap.1 hc
    exact Value.claim?_of_check? hv

/-- Only names that the pieces claim are used afterwards. -/
theorem use_mem_restChecks {name : String} (h : .use name ∈ e.restChecks) :
    name ∈ claimed (checks e.pieces) := by
  rw [claimed_checks]
  refine e.names_perm.subset (List.mem_append.2 ?_)
  rw [← e.proofs_args, Value.proofsOf_eq, ← e.buckets_args_perm.mem_iff, Value.bucketsOf_eq,
    List.mem_filterMap, List.mem_filterMap]
  rcases e.mem_restChecks.1 h with h | h
  · cases h
  · obtain ⟨v, hv, hc⟩ := List.mem_filterMap.1 h
    rcases Value.check?_eq_use_iff.1 hc with hb | hp
    · exact Or.inl ⟨v, hv, hb⟩
    · exact Or.inr ⟨v, hv, hp⟩

/-- **The names of an expansion are in order.** -/
theorem wellNamed : WellNamed (checksOf account e.calls) := by
  have hclaimed : claimed (checksOf account e.calls) = e.pieces.flatMap Piece.names := by
    rw [checksOf_eq, claimed_address, claimed_append, claimed_checks, claimed_restChecks,
      List.append_nil]
  refine ⟨hclaimed ▸ e.names_nodup, hclaimed ▸ e.names_ne, ?_⟩
  rw [checksOf_eq, AtEach.cons_iff, AtEach.append_iff]
  refine ⟨?_, ?_, ?_⟩
  · intro name h
    cases h
  · rintro before c after he name rfl
    exact absurd (he ▸ by simp) (use_not_mem_checks e.pieces name)
  · rintro before c after he name rfl
    rw [claimed_address, claimed_append]
    exact List.mem_append_left _ (e.use_mem_restChecks (by rw [he]; simp))

theorem address_mem_checksOf {a : String} :
    .address a ∈ checksOf account e.calls ↔ a = account.address ∨ a ∈ e.addresses := by
  rw [checksOf_eq, List.mem_cons, List.mem_append, address_mem_checks, mem_restChecks,
    Value.address_mem_checks_iff, addresses, List.mem_append, List.mem_cons,
    Check.address.injEq, Check.address.injEq]

/-! ## The steps -/

/-- The steps up to the first call of a method. -/
def before : Manifest :=
  stepsOf account (gather e.pieces)

/-- The steps after the first call of a method. -/
def after : Manifest :=
  e.further.map (fun method => .callMethod e.target method [.entireWorktop]) ++
    [.depositBatch account.address e.mode]

theorem stepsOf_eq : stepsOf account e.calls =
    e.before account ++ .callMethod e.target e.method e.args :: e.after account := by
  simp [stepsOf, calls, rest, before, after, Call.instruction]

theorem getLast?_steps :
    (stepsOf account e.calls).getLast? = some (.depositBatch account.address e.mode) := by
  rw [stepsOf_eq, after, ← List.cons_append, ← List.append_assoc, List.getLast?_concat]

/-- **The first call is made with the worktop empty**, and its buckets are filled
    with what is stated. -/
theorem run_before : Worktop.empty.run (e.before account) =
    some (cleared ((portions e.pieces).map Portion.filled)) := by
  have h := run_gather account e.pieces []
  rwa [List.nil_append] at h

/-- The buckets of the call hold what it is handed. -/
theorem buckets_filled :
    (Value.bucketsOf e.args).map (cleared ((portions e.pieces).map Portion.filled)).bucket? =
      e.handed.map fun p => some p.content := by
  rw [e.buckets_args, List.map_map]
  refine List.map_congr_left fun p hp => ?_
  exact bucket?_cleared e.buckets_nodup p (e.handed_perm.mem_iff.1 hp)

/-- All that is withdrawn is handed over. -/
theorem withdrawn_before (r : String) :
    withdrawn (e.before account) r = unitsIn (e.handed.map Portion.content) r := by
  have h := Worktop.run_conserves r (e.run_before account)
  have hempty : Worktop.empty.total r = 0 := rfl
  rw [hempty, Nat.zero_add, Worktop.total, cleared, Nat.zero_add, List.map_map] at h
  rw [← h, unitsIn, unitsIn]
  exact ((e.handed_perm.symm.map Portion.content).map _).sum_nat.symm ▸ rfl

/-! ## The balance -/

theorem created_after : created (e.after account) = [] := by
  simp [created, after, Instruction.created?]

theorem used_after : used (e.after account) = [] := by
  simp [used, after, Instruction.uses, Value.leavesOf, Value.leaves, Value.entireWorktop,
    Value.bucket?]

theorem proofEvents_after : proofEvents (e.after account) = [] := by
  simp [proofEvents, after, Instruction.proofEvents, Value.leavesOf, Value.leaves,
    Value.entireWorktop, Value.proof?]

theorem flatMap_steps {β : Type} (f : Instruction → List β) :
    (stepsOf account e.calls).flatMap f = (e.before account).flatMap f ++
      (f (.callMethod e.target e.method e.args) ++ (e.after account).flatMap f) := by
  rw [stepsOf_eq, List.flatMap_append, List.flatMap_cons]

theorem created_steps :
    created (stepsOf account e.calls) = (portions e.pieces).map Portion.bucket := by
  rw [created, flatMap_steps, ← created, ← created, created_after, before, created_gather]
  exact List.append_nil _

theorem used_steps : used (stepsOf account e.calls) = Value.bucketsOf e.args := by
  rw [used, flatMap_steps, ← used, ← used, used_after, before, used_gather, List.nil_append,
    List.append_nil, Instruction.uses, Value.bucketsOf_eq]

theorem proofEvents_steps : proofEvents (stepsOf account e.calls) =
    (proofs e.pieces).map .introduce ++ (proofs e.pieces).map .use := by
  rw [proofEvents, flatMap_steps, ← proofEvents, ← proofEvents, proofEvents_after, before,
    proofEvents_gather, List.append_nil, Instruction.proofEvents, ← Value.proofsOf_eq,
    e.proofs_args]

/-- No step makes a proof of a bucket. -/
theorem ne_createProofFromBucket {i : Instruction} (hi : i ∈ stepsOf account e.calls)
    (bucket proof : String) : i ≠ .createProofFromBucket bucket proof := by
  rintro rfl
  rw [stepsOf_eq, List.mem_append, List.mem_cons] at hi
  rcases hi with hi | hi | hi
  · cases gathers_of_mem account e.pieces _ hi
  · cases hi
  · simp [after] at hi

/-- **An expansion leaves nothing behind.** -/
theorem balanced : Balanced (stepsOf account e.calls) account where
  created_once := by
    rw [← nodup_created_iff, created_steps]
    exact e.buckets_nodup
  used_created := by
    rw [stepsOf_eq, AtEach.append_iff, AtEach.cons_iff]
    refine ⟨?_, ?_, ?_⟩
    · rintro before i after he b hb
      have hi : i ∈ e.before account := by rw [he]; simp
      rw [uses_of_gathers (gathers_of_mem account e.pieces i hi)] at hb
      exact absurd hb List.not_mem_nil
    · intro b hb
      rw [Instruction.uses, ← Value.bucketsOf_eq, e.buckets_args_perm.mem_iff] at hb
      rwa [List.append_nil, Expansion.before, ← mem_created_iff, created_gather]
    · rintro before i after he b hb
      have hused : b ∈ used (e.after account) :=
        List.mem_flatMap.2 ⟨i, by rw [he]; simp, hb⟩
      rw [used_after] at hused
      exact absurd hused List.not_mem_nil
  used_once := by
    intro b hb
    rw [← mem_created_iff, created_steps, ← e.buckets_args_perm.mem_iff] at hb
    rw [used_steps, (e.buckets_args_perm.nodup_iff.2 e.buckets_nodup).count, if_pos hb]
  proven_open := by
    rintro before i after he b p rfl
    exact absurd rfl (e.ne_createProofFromBucket account (by rw [he]; simp) b p)
  proofs_allowed := by
    rw [proofEvents_steps]
    exact allowed_introduce_use e.proofs_nodup
  swept _ := ⟨_, e.getLast?_steps account, .deposit⟩

theorem audit_eq : audit (stepsOf account e.calls) account = .ok () := by
  obtain ⟨_, h⟩ := (decides_audit _ account).ok_iff.2 (balanced_iff.1 (e.balanced account))
  exact h

/-- The builder refuses an expansion over an address only. -/
theorem buildCalls_yields : Yields (buildCalls account e.calls)
    (fun fault => ∃ a, (a = account.address ∨ a ∈ e.addresses) ∧ ¬Address.hasShape a ∧
      fault = .invalidAddress a)
    fun m => m = stepsOf account e.calls ∧
      ∀ a, a = account.address ∨ a ∈ e.addresses → Address.hasShape a := by
  have hchecks := (e.wellNamed account).runAll
  simp only [address_mem_checksOf] at hchecks
  rw [buildCalls_eq, audit_eq]
  exact hchecks.bind fun _ h => ⟨rfl, h⟩

end Expansion

end LedgerClient.Operation
