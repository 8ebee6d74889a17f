/-
  What the audit accepts: the manifests that leave nothing behind.

  * `Creates b i` and `Fills i` name the kinds of instructions that create a bucket
    and that may leave something on the worktop;
  * `Balanced m initiator` says, of the manifest as a whole, that every bucket is
    created and used up once and in this order, that proofs are used while they
    live, and that a worktop that was used is swept at the end;
  * `Tracks` relates the holdings of the audit to the instructions read so far.
    Each step of the audit decides one condition on them and keeps `Tracks`;
  * `audit_ok_iff`: the audit accepts exactly the balanced manifests.
-/
import LedgerClient.Manifest.Audit
import LedgerClient.Proofs.Manifest.Leaves
import LedgerClient.Proofs.Scan

namespace LedgerClient.Manifest

/-! ## Buckets and proofs of a manifest -/

/-- What an instruction does to the proofs. -/
inductive ProofEvent where
  | introduce (proof : String)
  /-- ends the life of the proof -/
  | use (proof : String)
  | dropAll

namespace Instruction

/-- The occurrences of buckets that an instruction uses up, at any depth of its arguments. -/
def uses : Instruction → List String
  | returnToWorktop b | burn b => [b]
  | callMethod _ _ args | callFunction _ _ _ args =>
    (Value.leavesOf args).filterMap Value.bucket?
  | _ => []

/-- What an instruction does to the proofs, at any depth of its arguments from left to right. -/
def proofEvents : Instruction → List ProofEvent
  | popFromAuthZone p | createProofFromBucket _ p => [.introduce p]
  | pushToAuthZone p | dropProof p => [.use p]
  | dropAllProofs => [.dropAll]
  | callMethod _ _ args | callFunction _ _ _ args =>
    ((Value.leavesOf args).filterMap Value.proof?).map .use
  | _ => []

theorem consumed_eq (i : Instruction) : i.consumed = i.uses := by
  cases i <;> simp only [consumed, uses, Value.bucketsOf_eq]

end Instruction

/-- The instructions that create the bucket. -/
inductive Creates (bucket : String) : Instruction → Prop
  | all {resource} : Creates bucket (.takeAll resource bucket)
  | amount {resource amount} : Creates bucket (.take resource amount bucket)
  | ids {resource ids} : Creates bucket (.takeNonFungibles resource ids bucket)

/-- The bucket is created by one of the instructions. -/
def Created (m : Manifest) (bucket : String) : Prop :=
  ∃ i ∈ m, Creates bucket i

/-- The instructions that may leave something on the worktop. -/
inductive Fills : Instruction → Prop
  | withdraw {account resource amount} : Fills (.withdraw account resource amount)
  | withdrawIds {account resource ids} : Fills (.withdrawNonFungibles account resource ids)
  | returned {bucket} : Fills (.returnToWorktop bucket)
  | method {address method args} : Fills (.callMethod address method args)
  | function {package blueprint function args} :
      Fills (.callFunction package blueprint function args)

/-- The occurrences of buckets that instructions use up, in order. -/
def used (m : Manifest) : List String :=
  m.flatMap Instruction.uses

/-- What instructions do to the proofs, in order. -/
def proofEvents (m : Manifest) : List ProofEvent :=
  m.flatMap Instruction.proofEvents

/-- A proof is live that was introduced and neither used nor dropped since. -/
def Live (es : List ProofEvent) (p : String) : Prop :=
  ∃ before after, es = before ++ .introduce p :: after ∧ .use p ∉ after ∧ .dropAll ∉ after

/-- What may happen to the proofs after `es`. -/
def Allowed (es : List ProofEvent) : ProofEvent → Prop
  | .introduce p => ¬Live es p
  | .use p => Live es p
  | .dropAll => True

/-- The instructions that hand the entire worktop to the account. -/
inductive Sweeps (initiator : AccountRef) : Instruction → Prop
  | deposit {mode} : Sweeps initiator (.depositBatch initiator.address mode)
  | call {method args} : .expression .entireWorktop ∈ Value.leavesOf args →
      Sweeps initiator (.callMethod initiator.address method args)

/-- A manifest of the given account that leaves nothing behind. -/
structure Balanced (m : Manifest) (initiator : AccountRef) : Prop where
  /-- No two instructions create a bucket of the same name. -/
  created_once : AtEach (fun before i => ∀ b, Creates b i → ¬Created before b) m
  /-- A bucket that is used up was created by an earlier instruction. -/
  used_created : AtEach (fun before i => ∀ b ∈ i.uses, Created before b) m
  /-- A bucket that is created is used up once in the whole manifest. -/
  used_once : ∀ b, Created m b → (used m).count b = 1
  /-- A bucket of which a proof is made was created and is not used up yet. -/
  proven_open : AtEach (fun before i => ∀ b p, i = .createProofFromBucket b p →
    Created before b ∧ b ∉ used before) m
  /-- A proof is introduced while its name is free and used while it lives. -/
  proofs_allowed : AtEach Allowed (proofEvents m)
  /-- What may be left on the worktop is swept by the last instruction. -/
  swept : (∃ i ∈ m, Fills i) → ∃ i, m.getLast? = some i ∧ Sweeps initiator i

/-! ## What the audit notes of an instruction -/

theorem Instruction.created?_eq_some_iff {i : Instruction} {b : String} :
    i.created? = some b ↔ Creates b i := by
  constructor
  · intro h
    cases i with
    | takeAll _ _ => exact Option.some.inj h ▸ .all
    | take _ _ _ => exact Option.some.inj h ▸ .amount
    | takeNonFungibles _ _ _ => exact Option.some.inj h ▸ .ids
    | _ => cases h
  · rintro (_ | _ | _) <;> rfl

theorem Instruction.fillsWorktop_iff {i : Instruction} : i.fillsWorktop ↔ Fills i := by
  constructor
  · intro h
    cases i with
    | withdraw _ _ _ => exact .withdraw
    | withdrawNonFungibles _ _ _ => exact .withdrawIds
    | returnToWorktop _ => exact .returned
    | callMethod _ _ _ => exact .method
    | callFunction _ _ _ _ => exact .function
    | _ => cases h
  · rintro (_ | _ | _ | _ | _) <;> rfl

/-- The buckets that the audit notes, in order. -/
def created (m : Manifest) : List String :=
  m.flatMap fun i => i.created?.toList

theorem mem_created_iff {m : Manifest} {b : String} : b ∈ created m ↔ Created m b := by
  simp only [created, List.mem_flatMap, Option.mem_toList, Instruction.created?_eq_some_iff,
    Created]

theorem nodup_created_iff {m : Manifest} :
    (created m).Nodup ↔ AtEach (fun before i => ∀ b, Creates b i → ¬Created before b) m := by
  rw [← AtEach.nodup_iff, created, AtEach.flatMap_iff]
  refine AtEach.congr (fun before i => ?_) m
  simp only [← Instruction.created?_eq_some_iff, ← mem_created_iff]
  cases i.created? with
  | none => simp [AtEach.nil]
  | some b => simp [AtEach.cons_iff, AtEach.nil, created]

/-! ## The life of a proof -/

theorem live_snoc {es : List ProofEvent} {e : ProofEvent} {p : String} :
    Live (es ++ [e]) p ↔ e = .introduce p ∨ Live es p ∧ e ≠ .use p ∧ e ≠ .dropAll := by
  constructor
  · rintro ⟨before, after, he, hu, hd⟩
    rcases List.eq_nil_or_concat after with rfl | ⟨after, e', rfl⟩
    · exact Or.inl (List.cons.inj (List.append_inj' he rfl).2).1
    · rw [List.concat_eq_append, List.mem_append, List.mem_singleton, not_or] at hu hd
      rw [List.concat_eq_append, ← List.cons_append, ← List.append_assoc] at he
      obtain ⟨rfl, he'⟩ := List.append_inj' he rfl
      obtain ⟨rfl, -⟩ := List.cons.inj he'
      exact Or.inr ⟨⟨before, after, rfl, hu.1, hd.1⟩, Ne.symm hu.2, Ne.symm hd.2⟩
  · rintro (rfl | ⟨⟨before, after, rfl, hu, hd⟩, hne, hne'⟩)
    · exact ⟨es, [], rfl, List.not_mem_nil, List.not_mem_nil⟩
    · refine ⟨before, after ++ [e], by rw [List.append_assoc, List.cons_append], ?_, ?_⟩
      · simpa [hu] using Ne.symm hne
      · simpa [hd] using Ne.symm hne'

/-! ## Holdings that track what has been read -/

/-- The holdings after instructions that create `cs`, use up `us`, do `es` to the
    proofs, and may have used the worktop. -/
structure Tracks (cs us : List String) (es : List ProofEvent) (touched : Bool) (h : Holdings) :
    Prop where
  buckets : h.buckets = cs.map fun b => (b, decide (b ∉ us))
  used_created : ∀ b ∈ us, b ∈ cs
  proofs : ∀ p, p ∈ h.proofs ↔ Live es p
  touched : h.worktopUsed = touched

theorem lookup_map (f : String → Bool) (b : String) :
    ∀ cs : List String, (cs.map fun c => (c, f c)).lookup b = if b ∈ cs then some (f b) else none
  | [] => by simp
  | c :: cs => by
    rw [List.map_cons, List.lookup_cons, lookup_map f b cs]
    by_cases hc : b = c
    · simp [hc]
    · simp [hc, beq_eq_false_iff_ne.2 hc]

/-- What one event does to the proofs that are held. -/
def Holdings.meet (index : Nat) (h : Holdings) : ProofEvent → Except Fault Holdings
  | .introduce p => h.introduce p
  | .use p => h.useProof index p
  | .dropAll => .ok { h with proofs := [] }

theorem stepProofs_eq (index : Nat) (h : Holdings) (i : Instruction) :
    h.stepProofs index i = i.proofEvents.foldlM (Holdings.meet index) h := by
  cases i with
  | callMethod _ _ args | callFunction _ _ _ args =>
    simp only [Holdings.stepProofs, Instruction.proofEvents, List.foldlM_map, Value.proofsOf_eq,
      Holdings.meet]
  | popFromAuthZone _ | createProofFromBucket _ _ | pushToAuthZone _ | dropProof _ =>
    simp [Holdings.stepProofs, Instruction.proofEvents, Holdings.meet]
  | _ => rfl

namespace Tracks

variable {cs us : List String} {es : List ProofEvent} {touched : Bool} {h : Holdings}

theorem bucket?_eq (ht : Tracks cs us es touched h) (b : String) :
    h.bucket? b = if b ∈ cs then some (decide (b ∉ us)) else none := by
  rw [Holdings.bucket?, ht.buckets, lookup_map]

/-- A bucket is open that was created and is not used up. -/
theorem bucket?_eq_true (ht : Tracks cs us es touched h) {b : String} :
    h.bucket? b = some true ↔ b ∈ cs ∧ b ∉ us := by
  rw [ht.bucket?_eq]
  by_cases hc : b ∈ cs <;> simp [hc]

theorem close (ht : Tracks cs us es touched h) {b : String} (hb : b ∈ cs) :
    Tracks cs (us ++ [b]) es touched (h.close b) where
  buckets := by
    rw [Holdings.close, ht.buckets, List.map_map]
    refine List.map_congr_left fun c _ => ?_
    by_cases hc : c = b <;> simp [hc]
  used_created := by
    intro c hc
    rcases List.mem_append.1 hc with hc | hc
    · exact ht.used_created c hc
    · exact List.mem_singleton.1 hc ▸ hb
  proofs := ht.proofs
  touched := ht.touched

/-- Using up a bucket decides whether it is open. -/
theorem consume (ht : Tracks cs us es touched h) (index : Nat) (b : String) :
    Decides (h.consume index b) (b ∈ cs ∧ b ∉ us) (Tracks cs (us ++ [b]) es touched) := by
  rw [← ht.bucket?_eq_true]
  unfold Holdings.consume
  split
  · rename_i hb
    simp [Decides, Yields, hb]
  · rename_i hb
    exact ⟨hb, ht.close (ht.bucket?_eq_true.1 hb).1⟩
  · rename_i hb
    simp [Decides, Yields, hb]

theorem consume_all (ht : Tracks cs us es touched h) (index : Nat) (bs : List String) :
    Decides (bs.foldlM (Holdings.consume index) h)
      (AtEach (fun part b => b ∈ cs ∧ b ∉ us ++ part) bs) (Tracks cs (us ++ bs) es touched) := by
  refine decides_foldlM (fun part b => b ∈ cs ∧ b ∉ us ++ part)
    (fun h part => Tracks cs (us ++ part) es touched h) ?_ bs [] h (by simpa using ht)
  intro h part b hp
  simpa only [List.append_assoc] using hp.consume index b

/-- One change of the proofs decides whether it is allowed. -/
theorem meet (ht : Tracks cs us es touched h) (index : Nat) (e : ProofEvent) :
    Decides (h.meet index e) (Allowed es e) (Tracks cs us (es ++ [e]) touched) := by
  have keep : ∀ ps : List String, (∀ p, p ∈ ps ↔ Live (es ++ [e]) p) →
      Tracks cs us (es ++ [e]) touched { h with proofs := ps } := fun ps hps =>
    ⟨ht.buckets, ht.used_created, hps, ht.touched⟩
  cases e with
  | introduce p =>
    simp only [Holdings.meet, Holdings.introduce, Allowed, List.contains_eq_mem, decide_eq_true_eq,
      ← ht.proofs]
    split
    · rename_i hp
      exact not_not_intro hp
    · rename_i hp
      refine ⟨hp, keep _ fun q => ?_⟩
      simp [live_snoc, ht.proofs, @eq_comm _ q p]
  | use p =>
    simp only [Holdings.meet, Holdings.useProof, Allowed, List.contains_eq_mem, decide_eq_true_eq,
      ← ht.proofs]
    refine Decides.ite fun _ => keep _ fun q => ?_
    simp [live_snoc, ht.proofs, @eq_comm _ q p]
  | dropAll =>
    refine Decides.pure (keep _ fun q => ?_)
    simp [live_snoc]

theorem meet_all (ht : Tracks cs us es touched h) (index : Nat) (i : Instruction) :
    Decides (h.stepProofs index i) (AtEach (fun part e => Allowed (es ++ part) e) i.proofEvents)
      (Tracks cs us (es ++ i.proofEvents) touched) := by
  rw [stepProofs_eq]
  refine decides_foldlM (fun part e => Allowed (es ++ part) e)
    (fun h part => Tracks cs us (es ++ part) touched h) ?_ _ [] h (by simpa using ht)
  intro h part e hp
  simpa only [List.append_assoc] using hp.meet index e

/-- A proof of a bucket decides whether the bucket is open. -/
theorem checkProven (ht : Tracks cs us es touched h) (index : Nat) (i : Instruction) :
    Decides (h.checkProven index i)
      (∀ b p, i = .createProofFromBucket b p → b ∈ cs ∧ b ∉ us) fun _ => True := by
  cases i with
  | createProofFromBucket b p =>
    refine (Decides.ite fun _ => trivial).congr ?_
    simp [ht.bucket?_eq_true]
  | _ => exact (Decides.pure trivial).congr (by simp)

/-- Creating a bucket decides whether its name is new. -/
theorem create (ht : Tracks cs us es touched h) (i : Instruction) :
    Decides (h.create i) (AtEach (fun part b => b ∉ cs ++ part) i.created?.toList)
      (Tracks (cs ++ i.created?.toList) us es touched) := by
  unfold Holdings.create
  cases i.created? with
  | none => exact ⟨AtEach.nil _, by simpa using ht⟩
  | some b =>
    simp only [Option.toList_some, AtEach.cons_iff, List.append_nil, AtEach.nil, and_true,
      ht.bucket?_eq]
    by_cases hb : b ∈ cs
    · simp [hb, Decides, Yields]
    · have hu : b ∉ us := fun hu => hb (ht.used_created b hu)
      simp only [hb, if_false, Option.isSome_none, Bool.false_eq_true]
      refine ⟨not_false, ?_, fun c hc => List.mem_append_left _ (ht.used_created c hc), ht.proofs,
        ht.touched⟩
      simp [ht.buckets, hu]

end Tracks

/-! ## The steps of the audit -/

/-- What the audit demands of an instruction after the instructions `before`. -/
def Admits (before : Manifest) (i : Instruction) : Prop :=
  AtEach (fun part b => b ∈ created before ∧ b ∉ used before ++ part) i.uses ∧
  AtEach (fun part e => Allowed (proofEvents before ++ part) e) i.proofEvents ∧
  (∀ b p, i = .createProofFromBucket b p → b ∈ created before ∧ b ∉ used before) ∧
  AtEach (fun part b => b ∉ created before ++ part) i.created?.toList

/-- The holdings after the instructions `before`. -/
def After (before : Manifest) : Holdings → Prop :=
  Tracks (created before) (used before) (proofEvents before) (before.any Instruction.fillsWorktop)

theorem Tracks.snoc {before : Manifest} {i : Instruction} {h : Holdings}
    (ht : Tracks (created before ++ i.created?.toList) (used before ++ i.uses)
      (proofEvents before ++ i.proofEvents) (before.any Instruction.fillsWorktop) h) :
    After (before ++ [i]) { h with worktopUsed := h.worktopUsed || i.fillsWorktop } where
  buckets := by simpa [created, used] using ht.buckets
  used_created := by simpa [created, used] using ht.used_created
  proofs := by simpa [proofEvents] using ht.proofs
  touched := by simp [ht.touched]

theorem after_nil : After [] Holdings.none :=
  ⟨rfl, nofun, fun p => by simp [Holdings.none, Live, proofEvents], rfl⟩

/-- **A step of the audit** decides whether the instruction is admitted. -/
theorem decides_step {before : Manifest} {h : Holdings} (ht : After before h) (index : Nat)
    (i : Instruction) : Decides (h.step index i) (Admits before i) (After (before ++ [i])) := by
  rw [Holdings.step, i.consumed_eq]
  refine (ht.consume_all index i.uses).bind fun h₁ ht₁ => ?_
  refine (ht₁.meet_all index i).bind fun h₂ ht₂ => ?_
  -- an instruction that proves a bucket uses up none itself
  have hproven : Decides (h₂.checkProven index i)
      (∀ b p, i = .createProofFromBucket b p → b ∈ created before ∧ b ∉ used before)
      fun _ => True := (ht₂.checkProven index i).congr <| by
    refine forall_congr' fun b => forall_congr' fun p => imp_congr_right fun hi => ?_
    simp [hi, Instruction.uses]
  refine hproven.bind fun _ _ => ?_
  refine ((ht₂.create i).bind fun h₃ ht₃ => Decides.pure ?_).congr (by rw [and_true])
  exact ht₃.snoc

theorem decides_run : ∀ (m before : Manifest) (h : Holdings) (index : Nat), After before h →
    Decides (h.run index m) (AtEach (fun part => Admits (before ++ part)) m) (After (before ++ m))
  | [], before, h, index, ht => by
    rw [List.append_nil]
    exact ⟨AtEach.nil _, ht⟩
  | i :: m, before, h, index, ht => by
    have hm := (decides_step ht index i).bind fun h' =>
      decides_run m (before ++ [i]) h' (index + 1)
    rw [Holdings.run, List.append_cons]
    refine hm.congr ?_
    simp only [AtEach.cons_iff, List.append_nil, List.append_assoc, List.singleton_append]

/-! ## The end of the audit -/

theorem insertSorted_ne_nil (name : String) : ∀ ns, Holdings.insertSorted name ns ≠ []
  | [] => List.cons_ne_nil _ _
  | n :: ns => by
    rw [Holdings.insertSorted]
    split <;> exact List.cons_ne_nil _ _

/-- No bucket is stranded where every one that was created is used up. -/
theorem Tracks.stranded_isEmpty {cs us : List String} {es : List ProofEvent} {touched : Bool}
    {h : Holdings} (ht : Tracks cs us es touched h) : h.stranded.isEmpty ↔ ∀ b ∈ cs, b ∈ us := by
  have hopen : h.stranded.isEmpty ↔ h.buckets.filter (·.2) = [] := by
    rw [Holdings.stranded]
    cases h.buckets.filter (·.2) with
    | nil => simp
    | cons b bs => simp [insertSorted_ne_nil]
  rw [hopen, ht.buckets, List.filter_eq_nil_iff]
  simp

theorem decides_checkSweep (initiator : AccountRef) (last : Option Instruction) :
    Decides (Holdings.checkSweep initiator last) (∃ i, last = some i ∧ Sweeps initiator i)
      fun _ => True := by
  unfold Holdings.checkSweep
  split
  · rename_i account mode
    refine (Decides.ite fun _ => trivial).congr ⟨?_, ?_⟩
    · rintro rfl
      exact ⟨_, rfl, .deposit⟩
    · rintro ⟨_, ⟨⟩, hs⟩
      cases hs
      rfl
  · rename_i address method args
    refine (Decides.ite fun _ => trivial).congr ⟨?_, ?_⟩
    · rintro ⟨rfl, hw⟩
      exact ⟨_, rfl, .call ((Value.anyTakesEntireWorktop_iff args).1 hw)⟩
    · rintro ⟨_, ⟨⟩, hs⟩
      cases hs with
      | call hw => exact ⟨rfl, (Value.anyTakesEntireWorktop_iff args).2 hw⟩
  · rename_i hdeposit hcall
    rintro ⟨i, rfl, hs⟩
    cases hs with
    | deposit => exact hdeposit _ _ rfl
    | call _ => exact hcall _ _ _ rfl

theorem Tracks.finish {cs us : List String} {es : List ProofEvent} {touched : Bool}
    {h : Holdings} (ht : Tracks cs us es touched h) (initiator : AccountRef)
    (last : Option Instruction) :
    Decides (h.finish initiator last) ((∀ b ∈ cs, b ∈ us) ∧
      (touched → ∃ i, last = some i ∧ Sweeps initiator i)) fun _ => True := by
  rw [Holdings.finish, ht.touched]
  by_cases hs : h.stranded.isEmpty
  · rw [if_pos hs]
    rw [ht.stranded_isEmpty] at hs
    cases touched with
    | true =>
      exact (decides_checkSweep initiator last).congr ⟨fun h => ⟨hs, fun _ => h⟩, fun h => h.2 rfl⟩
    | false => exact (Decides.pure trivial).congr ⟨fun _ => ⟨hs, nofun⟩, fun _ => trivial⟩
  · rw [if_neg hs]
    exact fun h => hs (ht.stranded_isEmpty.2 h.1)

/-- The audit decides the conditions of its steps and of its end. -/
theorem decides_audit (m : Manifest) (initiator : AccountRef) :
    Decides (audit m initiator) (AtEach Admits m ∧ (∀ b ∈ created m, b ∈ used m) ∧
      (m.any Instruction.fillsWorktop → ∃ i, m.getLast? = some i ∧ Sweeps initiator i))
      fun _ => True :=
  (decides_run m [] Holdings.none 0 after_nil).bind fun _ ht => ht.finish initiator m.getLast?

/-! ## The manifest as a whole -/

theorem atEach_admits_iff {m : Manifest} : AtEach Admits m ↔
    (AtEach (fun before i => ∀ b ∈ i.uses, b ∈ created before) m ∧ (used m).Nodup) ∧
    AtEach Allowed (proofEvents m) ∧
    AtEach (fun before i => ∀ b p, i = .createProofFromBucket b p →
      b ∈ created before ∧ b ∉ used before) m ∧
    (created m).Nodup := by
  have hAdmits : AtEach Admits m ↔ AtEach (fun before i => Admits before i) m := Iff.rfl
  rw [hAdmits, ← AtEach.nodup_iff, ← AtEach.nodup_iff, used, created, proofEvents,
    AtEach.flatMap_iff, AtEach.flatMap_iff, AtEach.flatMap_iff]
  simp only [Admits, AtEach.and_iff, AtEach.const_iff]
  rfl

/-- A bucket is used up once where none is used up twice and each is. -/
theorem count_used {m : Manifest} (h : ∀ b ∈ used m, Created m b) :
    (∀ b, Created m b → (used m).count b = 1) ↔
      (used m).Nodup ∧ ∀ b, Created m b → b ∈ used m := by
  constructor
  · intro hc
    refine ⟨List.nodup_iff_count.2 fun b => ?_, fun b hb => ?_⟩
    · by_cases hb : b ∈ used m
      · exact Nat.le_of_eq (hc b (h b hb))
      · rw [List.count_eq_zero.2 hb]
        exact Nat.zero_le 1
    · exact List.count_pos_iff.1 (by rw [hc b hb]; exact Nat.one_pos)
  · rintro ⟨hn, hu⟩ b hb
    rw [hn.count, if_pos (hu b hb)]

theorem used_sub_created {m : Manifest}
    (h : AtEach (fun before i => ∀ b ∈ i.uses, Created before b) m) :
    ∀ b ∈ used m, Created m b := by
  intro b hb
  obtain ⟨i, hi, hbi⟩ := List.mem_flatMap.1 hb
  obtain ⟨before, after, rfl⟩ := List.append_of_mem hi
  obtain ⟨j, hj, hcreates⟩ := h before i after rfl b hbi
  exact ⟨j, List.mem_append_left _ hj, hcreates⟩

/-- The conditions of the steps are those on the manifest as a whole. -/
theorem balanced_iff {m : Manifest} {initiator : AccountRef} :
    Balanced m initiator ↔ AtEach Admits m ∧ (∀ b ∈ created m, b ∈ used m) ∧
      (m.any Instruction.fillsWorktop → ∃ i, m.getLast? = some i ∧ Sweeps initiator i) := by
  simp only [atEach_admits_iff, List.any_eq_true, Instruction.fillsWorktop_iff,
    nodup_created_iff, mem_created_iff]
  constructor
  · intro h
    obtain ⟨hn, hu⟩ := (count_used (used_sub_created h.used_created)).1 h.used_once
    exact ⟨⟨⟨h.used_created, hn⟩, h.proofs_allowed, h.proven_open, h.created_once⟩, hu, h.swept⟩
  · rintro ⟨⟨⟨hb, hn⟩, hp, hb', hc⟩, hu, hs⟩
    exact ⟨hc, hb, (count_used (used_sub_created hb)).2 ⟨hn, hu⟩, hb', hp, hs⟩

/-- **The audit accepts exactly the balanced manifests.** -/
theorem audit_ok_iff (m : Manifest) (initiator : AccountRef) :
    audit m initiator = .ok () ↔ Balanced m initiator := by
  rw [balanced_iff, ← (decides_audit m initiator).ok_iff]
  exact ⟨fun h => ⟨(), h⟩, fun ⟨_, h⟩ => h⟩

end LedgerClient.Manifest
