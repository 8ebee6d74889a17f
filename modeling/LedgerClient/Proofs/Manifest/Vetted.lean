/-
  What a built manifest is made of: checked addresses, and names that were introduced.

  * `Vetted m` says of a whole manifest that its addresses have the form of one and are
    written as they are, that buckets and proofs have names of their own, and that a value
    names only what an earlier instruction introduced;
  * the checks of a call see each address of its step and claim each name its step gives
    (`Call.address_checked`, `Call.claimed_checks`);
  * the audit sees each bucket and proof among the arguments of a step
    (`Instruction.bucket_mem_args`, `Instruction.proof_mem_args`);
  * `built_is_vetted`: whatever is called for, what a builder returns is vetted.
-/
import LedgerClient.Operation.Template
import LedgerClient.Proofs.Manifest.Audit
import LedgerClient.Proofs.Manifest.Building
import LedgerClient.Proofs.Text.Search

namespace LedgerClient

namespace Manifest

/-! ## Names that are given -/

namespace Instruction

/-- The proof a step introduces. -/
def introduced? : Instruction → Option String
  | popFromAuthZone p | createProofFromBucket _ p => some p
  | _ => none

/-- The names a step gives to buckets and proofs. -/
def names : Instruction → List String
  | takeAll _ name | take _ _ name | takeNonFungibles _ _ name | popFromAuthZone name
  | createProofFromBucket _ name => [name]
  | _ => []

theorem mem_names_iff {i : Instruction} {name : String} :
    name ∈ i.names ↔ Creates name i ∨ i.introduced? = some name := by
  rw [← created?_eq_some_iff]
  cases i <;> simp [names, created?, introduced?, eq_comm]

end Instruction

/-- The proofs that instructions introduce, in order. -/
def introduced (m : Manifest) : List String :=
  m.flatMap fun i => i.introduced?.toList

/-- The names that instructions give to buckets and proofs, in order. -/
def named (m : Manifest) : List String :=
  m.flatMap Instruction.names

theorem Created.mem_named {m : Manifest} {b : String} (h : Created m b) : b ∈ named m := by
  obtain ⟨i, hi, hcreates⟩ := h
  exact List.mem_flatMap.2 ⟨i, hi, Instruction.mem_names_iff.2 (Or.inl hcreates)⟩

theorem introduced_subset (m : Manifest) : introduced m ⊆ named m := by
  intro p hp
  obtain ⟨i, hi, hp⟩ := List.mem_flatMap.1 hp
  exact List.mem_flatMap.2 ⟨i, hi, Instruction.mem_names_iff.2 (Or.inr (Option.mem_toList.1 hp))⟩

/-- A manifest without anything malformed, at any depth of its arguments. -/
structure Vetted (m : Manifest) : Prop where
  shapes : ∀ i ∈ m, ∀ a ∈ Value.addressesOf i.args, Address.hasShape a
  /-- An address stands between its quotes as it is. -/
  verbatim : ∀ i ∈ m, ∀ a ∈ Value.addressesOf i.args,
    (Value.address a).chars = "Address(\"".toList ++ a.toList ++ "\")".toList
  names_ne : ∀ i ∈ m, ∀ name, name ∈ i.names ∨ .bucket name ∈ Value.leavesOf i.args ∨
    .proof name ∈ Value.leavesOf i.args → name ≠ ""
  /-- No two buckets, no two proofs, and no bucket and proof have the same name. -/
  named_once : (named m).Nodup
  buckets_known : AtEach (fun before i => ∀ b, .bucket b ∈ Value.leavesOf i.args →
    Creates b i ∨ Created before b) m
  proofs_known : AtEach (fun before i => ∀ p, .proof p ∈ Value.leavesOf i.args →
    i.introduced? = some p ∨ p ∈ introduced before) m

/-! ## Addresses are written as they are -/

theorem Value.escapeChar_eq_self {c : Char} (hlow : 35 ≤ c.toNat) (hhigh : c.toNat ≤ 122)
    (hslash : c.toNat ≠ 92) : escapeChar c = [c] := by
  have hne : ∀ d : Char, d.toNat < 35 ∨ d.toNat = 92 → c ≠ d := by
    rintro d hd rfl
    omega
  have hcontrol : ¬isControl c := by
    simp only [isControl, Bool.or_eq_true, Bool.and_eq_true, decide_eq_true_eq]
    omega
  rw [escapeChar, if_neg (hne _ (by decide)), if_neg (hne _ (by decide)),
    if_neg (hne _ (by decide)), if_neg (hne _ (by decide)), if_neg (hne _ (by decide)),
    if_neg hcontrol]

end Manifest

open Manifest

namespace Address

theorem isReadable_of_mem {cs : List Char} (h : isReadablePart cs) {c : Char} (hc : c ∈ cs) :
    isReadable c := by
  cases cs with
  | nil => cases h
  | cons d ds =>
    simp only [isReadablePart, Bool.and_eq_true, List.all_eq_true] at h
    rcases List.mem_cons.1 hc with rfl | hc
    · simp [isReadable, h.1]
    · exact h.2 c hc

/-- No character of an address needs to be escaped. -/
theorem escapeChar_of_hasShape {a : String} (h : hasShape a) {c : Char} (hc : c ∈ a.toList) :
    Value.escapeChar c = [c] := by
  have hbounds : isReadable c ∨ Bech32.isSymbol c ∨ c = '1' := by
    rw [hasShape] at h
    split at h
    · rename_i readable symbols hcut
      simp only [Bool.and_eq_true, List.all_eq_true] at h
      obtain ⟨he, -⟩ := Text.cutAtLast?_eq_some_iff.1 hcut
      rw [he, List.mem_append, List.mem_cons] at hc
      rcases hc with hc | rfl | hc
      · exact Or.inl (isReadable_of_mem h.1.1 hc)
      · exact Or.inr (Or.inr rfl)
      · exact Or.inr (Or.inl (h.1.2 c hc))
    · cases h
  have hsymbols : Bech32.alphabet.all fun d =>
      decide (48 ≤ d.toNat ∧ d.toNat ≤ 122 ∧ d.toNat ≠ 92) := by decide
  rcases hbounds with hc | hc | rfl
  · simp only [isReadable, isLower, Bool.or_eq_true, Bool.and_eq_true, decide_eq_true_eq,
      beq_iff_eq] at hc
    rcases hc with (hc | hc) | rfl
    · exact Value.escapeChar_eq_self (by omega) (by omega) (by omega)
    · exact Value.escapeChar_eq_self (by omega) (by omega) (by omega)
    · rfl
  · obtain ⟨hlow, hhigh, hslash⟩ :=
      of_decide_eq_true (List.all_eq_true.1 hsymbols c (List.contains_iff_mem.1 hc))
    exact Value.escapeChar_eq_self (by omega) hhigh hslash
  · rfl

theorem chars_of_hasShape {a : String} (h : hasShape a) :
    (Value.address a).chars = "Address(\"".toList ++ a.toList ++ "\")".toList := by
  have hplain : a.toList.flatMap Value.escapeChar = a.toList.flatMap fun c => [c] :=
    List.flatMap_congr fun c hc => escapeChar_of_hasShape h hc
  rw [Value.chars, Value.quoted, hplain, List.flatMap_singleton']
  simp [Value.wrapped]

end Address

namespace Manifest

/-! ## What the checks of a call see -/

theorem Value.leaves_localIds (ids : List String) : (localIds ids).leaves = ids.map .localId := by
  rw [localIds, leaves]
  induction ids with
  | nil => rfl
  | cons id ids ih => simp [leavesOf, leaves, ih]

theorem leavesOf_depositBatch (account : String) (mode : DepositMode) :
    Value.leavesOf (Instruction.depositBatch account mode).args =
      [.address account, .string mode.method, .entireWorktop] := by
  cases mode <;> rfl

namespace Call

variable {initiator : AccountRef} {call : Call}

/-- Each address of a step is the initiator's or is checked with the call. -/
theorem address_checked {a : String} (h : a ∈ Value.addressesOf (call.instruction initiator).args) :
    a = initiator.address ∨ .address a ∈ call.checks := by
  cases call with
  | callMethod _ _ args | callFunction _ _ _ args =>
    refine Or.inr ?_
    rw [checks, List.mem_cons, Value.address_mem_checks_iff]
    simpa [instruction, Instruction.args, Value.addressesOf, Value.leavesOf, Value.leaves,
      Value.address?] using h
  | deposit mode =>
    rw [instruction, Value.addressesOf, leavesOf_depositBatch] at h
    exact Or.inl (List.mem_singleton.1 h)
  | _ =>
    simp [instruction, Instruction.args, Value.addressesOf, Value.leavesOf, Value.leaves,
      Value.leaves_localIds, Value.address?] at h <;>
    grind [checks]

/-- A call claims the names its step gives. -/
theorem claimed_checks : claimed call.checks = (call.instruction initiator).names := by
  cases call with
  | callMethod address _ args | callFunction address _ _ args =>
    rw [checks, claimed_address, claimed, List.filterMap_filterMap]
    refine List.filterMap_eq_nil_iff.2 fun v _ => ?_
    cases hv : v.check? with
    | none => rfl
    | some c => exact Value.claim?_of_check? hv
  | _ => rfl

end Call

/-! ## What the audit sees of a step -/

namespace Instruction

variable {i : Instruction}

theorem bucket_mem_args {b : String} (h : .bucket b ∈ Value.leavesOf i.args) :
    Creates b i ∨ b ∈ i.uses ∨ ∃ p, i = .createProofFromBucket b p := by
  rw [← created?_eq_some_iff]
  cases i with
  | callMethod _ _ vs | callFunction _ _ _ vs =>
    refine Or.inr (Or.inl (List.mem_filterMap.2 ⟨.bucket b, ?_, rfl⟩))
    simpa [args, Value.leavesOf, Value.leaves] using h
  | depositBatch _ mode => simp [leavesOf_depositBatch, Value.entireWorktop] at h
  | _ =>
    simp [args, Value.leavesOf, Value.leaves, Value.leaves_localIds] at h <;>
    simp [h, created?, uses]

theorem proof_mem_args {p : String} (h : .proof p ∈ Value.leavesOf i.args) :
    i.introduced? = some p ∨ .use p ∈ i.proofEvents := by
  cases i with
  | callMethod _ _ vs | callFunction _ _ _ vs =>
    refine Or.inr (List.mem_map_of_mem (List.mem_filterMap.2 ⟨.proof p, ?_, rfl⟩))
    simpa [args, Value.leavesOf, Value.leaves] using h
  | depositBatch _ mode => simp [leavesOf_depositBatch, Value.entireWorktop] at h
  | _ =>
    simp [args, Value.leavesOf, Value.leaves, Value.leaves_localIds] at h <;>
    simp [h, introduced?, proofEvents]

theorem introduce_mem_iff {p : String} : .introduce p ∈ i.proofEvents ↔ i.introduced? = some p := by
  cases i <;> simp [proofEvents, introduced?, eq_comm]

/-- A step that introduces a proof uses none. -/
theorem use_not_mem {p q : String} (h : i.introduced? = some p) : .use q ∉ i.proofEvents := by
  cases i <;> simp_all [proofEvents, introduced?]

end Instruction

namespace Balanced

variable {m : Manifest} {initiator : AccountRef} (h : Balanced m initiator)

include h

theorem buckets_known : AtEach (fun before i => ∀ b, .bucket b ∈ Value.leavesOf i.args →
    Creates b i ∨ Created before b) m := by
  intro before i after he b hb
  rcases Instruction.bucket_mem_args hb with hcreated | hused | ⟨p, rfl⟩
  · exact Or.inl hcreated
  · exact Or.inr (h.used_created before i after he b hused)
  · exact Or.inr (h.proven_open before _ after he b p rfl).1

theorem proofs_known : AtEach (fun before i => ∀ p, .proof p ∈ Value.leavesOf i.args →
    i.introduced? = some p ∨ p ∈ introduced before) m := by
  intro before i after he p hp
  refine (Instruction.proof_mem_args hp).imp_right fun hused => ?_
  -- the proof is live where it is used, so it was introduced in front of it
  obtain ⟨es, es', hes⟩ := List.append_of_mem hused
  obtain ⟨past, since, hlive, -, -⟩ :=
    AtEach.flatMap_iff.1 h.proofs_allowed before i after he es (.use p) es' hes
  have hpast : .introduce p ∈ proofEvents before ++ es := by
    show _ ∈ before.flatMap Instruction.proofEvents ++ es
    rw [hlive]
    exact List.mem_append_right _ List.mem_cons_self
  rcases List.mem_append.1 hpast with hbefore | hes'
  · obtain ⟨j, hj, hjp⟩ := List.mem_flatMap.1 hbefore
    exact List.mem_flatMap.2 ⟨j, hj, Option.mem_toList.2 (Instruction.introduce_mem_iff.1 hjp)⟩
  · have hi : .introduce p ∈ i.proofEvents := hes ▸ List.mem_append_left _ hes'
    exact absurd hused (Instruction.use_not_mem (Instruction.introduce_mem_iff.1 hi))

theorem mem_named {i : Instruction} (hi : i ∈ m) {name : String}
    (hname : name ∈ i.names ∨ .bucket name ∈ Value.leavesOf i.args ∨
      .proof name ∈ Value.leavesOf i.args) : name ∈ named m := by
  obtain ⟨before, after, he⟩ := List.append_of_mem hi
  have hown : i.names ⊆ named m := fun n hn => List.mem_flatMap.2 ⟨i, hi, hn⟩
  have hbefore : named before ⊆ named m := by
    rw [he, named, named, List.flatMap_append]
    exact List.subset_append_left _ _
  rcases hname with hname | hbucket | hproof
  · exact hown hname
  · rcases h.buckets_known before i after he name hbucket with hcreated | hcreated
    · exact hown (Instruction.mem_names_iff.2 (Or.inl hcreated))
    · exact hbefore hcreated.mem_named
  · rcases h.proofs_known before i after he name hproof with hintroduced | hintroduced
    · exact hown (Instruction.mem_names_iff.2 (Or.inr hintroduced))
    · exact hbefore (introduced_subset before hintroduced)

end Balanced

/-! ## What is built -/

theorem hasShape_of_passes {checks : List Check} (h : AtEach Check.Passes checks) {a : String}
    (ha : .address a ∈ checks) : Address.hasShape a := by
  obtain ⟨before, after, he⟩ := List.append_of_mem ha
  exact Classical.not_not.1 fun hs => h before _ after he _ (.address hs)

theorem WellNamed.of_passes {checks : List Check} (h : AtEach Check.Passes checks) :
    WellNamed checks where
  claimed_once := by
    rw [claimed, List.filterMap_eq_flatMap_toList, ← AtEach.nodup_iff, AtEach.flatMap_iff]
    intro before c after he
    cases c with
    | claim name =>
      refine AtEach.cons_iff.2 ⟨fun ht => ?_, AtEach.nil _⟩
      rw [List.append_nil, ← List.filterMap_eq_flatMap_toList] at ht
      by_cases hne : name = ""
      · subst hne
        exact h before _ after he _ .blank
      · exact h before _ after he _ (.taken hne ht)
    | address _ | use _ => exact AtEach.nil _
  claimed_ne := by
    intro hblank
    obtain ⟨c, hc, hname⟩ := List.mem_filterMap.1 hblank
    obtain ⟨before, after, he⟩ := List.append_of_mem hc
    cases c with
    | claim name =>
      obtain rfl : name = "" := Option.some.inj hname
      exact h before _ after he _ .blank
    | address _ | use _ => cases hname
  used_claimed := by
    rintro before _ after he name rfl
    exact Classical.not_not.1 fun hu => h before _ after he _ (.unknown hu)

theorem claimed_checksOf (initiator : AccountRef) (calls : List Call) :
    claimed (checksOf initiator calls) = named (stepsOf initiator calls) := by
  rw [checksOf, claimed_address, claimed, List.filterMap_flatMap, named, stepsOf, List.flatMap_map]
  exact List.flatMap_congr fun call _ => call.claimed_checks

/-- Building decides whether all checks pass and the steps are balanced. -/
theorem decides_buildCalls (initiator : AccountRef) (calls : List Call) :
    Decides (buildCalls initiator calls)
      (AtEach Check.Passes (checksOf initiator calls) ∧
        Balanced (stepsOf initiator calls) initiator)
      fun m => m = stepsOf initiator calls := by
  rw [buildCalls_eq]
  refine (decides_runAll _).bind fun _ _ => ?_
  have haudit := (decides_audit (stepsOf initiator calls) initiator).congr balanced_iff.symm
  cases hr : audit (stepsOf initiator calls) initiator with
  | error fault =>
    rw [hr] at haudit
    exact haudit
  | ok u =>
    rw [hr] at haudit
    exact ⟨haudit.1, rfl⟩

theorem vetted_of_build {initiator : AccountRef} {calls : List Call} {m : Manifest}
    (h : buildCalls initiator calls = .ok m) : Vetted m := by
  have hbuild := decides_buildCalls initiator calls
  obtain ⟨hpass, hbalanced⟩ := hbuild.ok_iff.1 ⟨m, h⟩
  obtain rfl : m = stepsOf initiator calls := hbuild.result h
  obtain ⟨honce, hblank, -⟩ := WellNamed.of_passes hpass
  rw [claimed_checksOf] at honce hblank
  have hshapes : ∀ i ∈ stepsOf initiator calls, ∀ a ∈ Value.addressesOf i.args,
      Address.hasShape a := by
    intro i hi a ha
    obtain ⟨call, hcall, rfl⟩ := List.mem_map.1 hi
    refine hasShape_of_passes hpass (List.mem_cons.2 ?_)
    refine (Call.address_checked ha).imp (congrArg Check.address) fun hchecked => ?_
    exact List.mem_flatMap.2 ⟨call, hcall, hchecked⟩
  exact
    { shapes := hshapes
      verbatim := fun i hi a ha => Address.chars_of_hasShape (hshapes i hi a ha)
      names_ne := fun i hi name hname hne => hblank (hne ▸ hbalanced.mem_named hi hname)
      named_once := honce
      buckets_known := hbalanced.buckets_known
      proofs_known := hbalanced.proofs_known }

/-- **Nothing malformed enters a manifest that is built**, from whatever calls, and so from
    whatever operation on whatever addresses. -/
theorem built_is_vetted :
    (∀ (initiator : AccountRef) (calls : List Call) (m : Manifest),
      buildCalls initiator calls = .ok m → Vetted m) ∧
    ∀ (account : AccountRef) (book : AddressBook) (op : Operation) (m : Manifest),
      op.build account book = .ok m → Vetted m := by
  refine ⟨fun initiator calls m => vetted_of_build, fun account book op m h => ?_⟩
  rw [Operation.build] at h
  cases hcalls : op.calls book with
  | error fault =>
    rw [hcalls] at h
    cases h
  | ok calls =>
    rw [hcalls] at h
    exact vetted_of_build h

/-- Also where a bucket and a proof of it lie deep in the argument of one call. -/
theorem built_is_vetted_nested :
    let account : AccountRef := ⟨"account_rdx1qqqqqq", by decide, by decide⟩
    let calls : List Call := [.takeAll "resource_rdx1qqqqqq" "badge",
      .createProofFromBucket "badge" "proof",
      .callMethod "component_rdx1qqqqqq" "enter" [.tuple [.array "Proof" [.proof "proof"],
        Value.present (.address "pool_rdx1qqqqqq"), .bucket "badge"]], .deposit .tryOrRefund]
    let m := stepsOf account calls
    buildCalls account calls = .ok m ∧ Vetted m ∧ named m = ["badge", "proof"] :=
  have hbuild := rfl
  ⟨hbuild, built_is_vetted.1 _ _ _ hbuild, rfl⟩

end Manifest

end LedgerClient
