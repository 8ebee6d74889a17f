/-
  The checks of a builder, as a list.

  * `Call.checks` are the checks of a call in order, `Check.run` what one of them
    says where some names have been claimed before;
  * a builder remembers the first of its checks that fails (`Follows`), so
    `buildCalls_eq`: a manifest is built where all checks of its calls succeed
    one after the other, and then where the audit accepts it;
  * where names are claimed once and before they are used (`WellNamed`), checks
    can fail over the form of an address only (`WellNamed.runAll`).
-/
import LedgerClient.Manifest.Builder
import LedgerClient.Proofs.Manifest.Leaves
import LedgerClient.Proofs.Scan

namespace LedgerClient.Manifest

/-- A check of a builder. -/
inductive Check where
  /-- The text has the form of an address. -/
  | address (address : String)
  /-- The name is new, and taken from now on. -/
  | claim (name : String)
  /-- The name has been claimed. -/
  | use (name : String)

namespace Check

/-- What a check says after the given names: the names claimed then, or a fault. -/
def run (names : List String) : Check → Except Fault (List String)
  | address a => if Address.hasShape a then .ok names else .error (.invalidAddress a)
  | claim name =>
    if name = "" then .error (.invalidManifest "empty bucket/proof name")
    else if names.contains name then
      .error (.invalidManifest ("name '" ++ name ++ "' already used"))
    else .ok (name :: names)
  | use name =>
    if names.contains name then .ok names
    else .error (.invalidManifest ("unknown bucket/proof '" ++ name ++ "'"))

/-- The checks of a list, one after the other, until one fails. -/
def runAll (names : List String) (checks : List Check) : Except Fault (List String) :=
  checks.foldlM run names

end Check

/-- The check of a value that holds no further values. -/
def Value.check? : Value → Option Check
  | address a => some (.address a)
  | bucket name | proof name => some (.use name)
  | _ => none

/-- The checks of a call, its arguments from left to right at any depth. -/
def Call.checks : Call → List Check
  | lockFee _ | dropAllProofs | deposit _ => []
  | withdraw resource _ | withdrawNonFungibles resource _ | createProofOfAmount resource _
  | assertWorktopContains resource _ => [.address resource]
  | takeAll resource bucket | take resource _ bucket | takeNonFungibles resource _ bucket =>
    [.address resource, .claim bucket]
  | returnToWorktop name | pushToAuthZone name | dropProof name | burn name => [.use name]
  | popFromAuthZone proof => [.claim proof]
  | createProofFromBucket bucket proof => [.use bucket, .claim proof]
  | callMethod address _ args | callFunction address _ _ args =>
    .address address :: (Value.leavesOf args).filterMap Value.check?

namespace Builder

/-! ## Checks of a builder are checks of a list -/

/-- Does one check. -/
def perform (b : Builder) : Check → Builder
  | .address a => b.checkAddress a
  | .claim name => b.claim name
  | .use name => b.require name

mutual

theorem checkValue_eq (b : Builder) :
    ∀ v : Value, b.checkValue v = (v.leaves.filterMap Value.check?).foldl perform b
  | .enumeration _ vs | .array _ vs | .tuple vs => by
    rw [checkValue, Value.leaves, checkValues_eq b vs]
  | .address _ | .bucket _ | .proof _ | .decimal _ | .preciseDecimal _ | .expression _
  | .string _ | .bool _ | .integer _ _ | .localId _ => rfl

theorem checkValues_eq (b : Builder) : ∀ vs : List Value,
    b.checkValues vs = ((Value.leavesOf vs).filterMap Value.check?).foldl perform b
  | [] => rfl
  | v :: vs => by
    rw [checkValues, checkValues_eq _ vs, checkValue_eq b v, Value.leavesOf,
      List.filterMap_append, List.foldl_append]

end

theorem check_eq (b : Builder) (call : Call) : b.check call = call.checks.foldl perform b := by
  cases call with
  | callMethod a _ args | callFunction a _ _ args => exact checkValues_eq (b.checkAddress a) args
  | _ => rfl

/-- The builder has followed checks with the given result: it remembers their
    fault, or else the names they claimed. -/
def Follows (b : Builder) (r : Except Fault (List String)) : Prop :=
  match r with
  | .ok names => b.fault = none ∧ b.names = names
  | .error fault => b.fault = some fault

/-- A fault that is remembered stays, whatever later checks say. -/
theorem perform_fault {b : Builder} {fault : Fault} (h : b.fault = some fault) (c : Check) :
    (b.perform c).fault = some fault := by
  cases c with
  | address a =>
    simp only [perform, checkAddress, fail]
    split <;> simp [h]
  | claim name =>
    simp only [perform, claim, fail]
    repeat' split
    all_goals simp [h]
  | use name =>
    simp only [perform, require, fail]
    split <;> simp [h]

theorem Follows.perform {b : Builder} {r : Except Fault (List String)} (h : b.Follows r)
    (c : Check) : (b.perform c).Follows (r >>= fun names => c.run names) := by
  cases r with
  | error fault => exact perform_fault h c
  | ok names =>
    obtain ⟨hf, rfl⟩ := h
    show (b.perform c).Follows (c.run b.names)
    cases c with
    | address a =>
      simp only [Builder.perform, checkAddress, fail, Check.run]
      split <;> simp [Follows, hf]
    | claim name =>
      simp only [Builder.perform, claim, fail, Check.run]
      repeat' split
      all_goals simp [Follows, hf]
    | use name =>
      simp only [Builder.perform, require, fail, Check.run]
      split <;> simp [Follows, hf]

theorem Follows.performAll : ∀ (checks : List Check) {b : Builder}
    {r : Except Fault (List String)}, b.Follows r →
      (checks.foldl Builder.perform b).Follows (r >>= fun names => Check.runAll names checks)
  | [], b, r, h => by
    simpa only [Check.runAll, List.foldlM_nil, bind_pure, List.foldl_nil] using h
  | c :: checks, b, r, h => by
    have hc := Follows.performAll checks (h.perform c)
    simpa only [Check.runAll, List.foldlM_cons, List.foldl_cons, bind_assoc] using hc

/-! ## The steps of a builder -/

/-- Checks change neither the account nor the steps. -/
theorem perform_frame (b : Builder) (c : Check) :
    (b.perform c).initiator = b.initiator ∧ (b.perform c).steps = b.steps := by
  cases c with
  | address a =>
    simp only [perform, checkAddress, fail]
    split <;> exact ⟨rfl, rfl⟩
  | claim name =>
    simp only [perform, claim, fail]
    repeat' split
    all_goals exact ⟨rfl, rfl⟩
  | use name =>
    simp only [perform, require, fail]
    split <;> exact ⟨rfl, rfl⟩

theorem check_frame (b : Builder) (call : Call) :
    (b.check call).initiator = b.initiator ∧ (b.check call).steps = b.steps := by
  rw [check_eq]
  induction call.checks generalizing b with
  | nil => exact ⟨rfl, rfl⟩
  | cons c checks ih =>
    obtain ⟨hi, hs⟩ := b.perform_frame c
    rw [List.foldl_cons, ← hi, ← hs]
    exact ih (b.perform c)

theorem addAll_frame : ∀ (calls : List Call) (b : Builder),
    (b.addAll calls).initiator = b.initiator ∧
      (b.addAll calls).steps = b.steps ++ calls.map (Call.instruction b.initiator)
  | [], b => ⟨rfl, (List.append_nil _).symm⟩
  | call :: calls, b => by
    obtain ⟨hi, hs⟩ := b.check_frame call
    obtain ⟨hi', hs'⟩ := addAll_frame calls (b.add call)
    have hadd : (b.add call).initiator = b.initiator := hi
    refine ⟨hi'.trans hadd, ?_⟩
    rw [hadd] at hs'
    show ((b.add call).addAll calls).steps = _
    rw [hs', add, hs, hi, List.map_cons, List.append_assoc, List.singleton_append]

theorem Follows.addAll : ∀ (calls : List Call) {b : Builder} {r : Except Fault (List String)},
    b.Follows r →
      (b.addAll calls).Follows (r >>= fun names => Check.runAll names (calls.flatMap Call.checks))
  | [], b, r, h => by
    simpa only [Check.runAll, List.flatMap_nil, List.foldlM_nil, bind_pure,
      Builder.addAll, List.foldl_nil] using h
  | call :: calls, b, r, h => by
    have hcall : (b.add call).Follows (r >>= fun names => Check.runAll names call.checks) := by
      have := h.performAll call.checks
      rwa [← check_eq] at this
    have hcalls := Follows.addAll calls hcall
    simpa only [Check.runAll, List.flatMap_cons, List.foldlM_append, bind_assoc, Builder.addAll,
      List.foldl_cons] using hcalls

end Builder

/-- The steps that calls add. -/
def stepsOf (initiator : AccountRef) (calls : List Call) : Manifest :=
  calls.map (Call.instruction initiator)

/-- The checks of calls in the name of an account. -/
def checksOf (initiator : AccountRef) (calls : List Call) : List Check :=
  .address initiator.address :: calls.flatMap Call.checks

/-- **A builder does its checks one after the other, and then the audit.** -/
theorem buildCalls_eq (initiator : AccountRef) (calls : List Call) :
    buildCalls initiator calls =
      Check.runAll [] (checksOf initiator calls) >>= fun _ =>
        (audit (stepsOf initiator calls) initiator).map fun _ => stepsOf initiator calls := by
  have hstart : Builder.Follows ⟨initiator, [], [], none⟩ (.ok []) := ⟨rfl, rfl⟩
  have hf := (hstart.perform (.address initiator.address)).addAll calls
  obtain ⟨hi₀, hs₀⟩ := Builder.perform_frame ⟨initiator, [], [], none⟩ (.address initiator.address)
  obtain ⟨hi, hs⟩ := Builder.addAll_frame calls (Builder.start initiator)
  have hinit : ((Builder.start initiator).addAll calls).initiator = initiator := hi.trans hi₀
  have hsteps : ((Builder.start initiator).addAll calls).steps = stepsOf initiator calls := by
    rw [hs, show (Builder.start initiator).initiator = initiator from hi₀]
    rw [show (Builder.start initiator).steps = [] from hs₀]
    rfl
  rw [buildCalls, Builder.build, hinit, hsteps]
  change Builder.Follows ((Builder.start initiator).addAll calls)
    (Check.runAll [] (checksOf initiator calls)) at hf
  cases hr : Check.runAll [] (checksOf initiator calls) with
  | ok names =>
    rw [hr] at hf
    rw [hf.1]
    rfl
  | error fault =>
    rw [hr] at hf
    rw [show _ = some fault from hf]
    rfl

/-! ## Checks that fail over addresses only -/

/-- The name a check claims. -/
def Check.claim? : Check → Option String
  | claim name => some name
  | _ => none

/-- The names that checks claim, in order. -/
def claimed (checks : List Check) : List String :=
  checks.filterMap Check.claim?

theorem claimed_append (checks checks' : List Check) :
    claimed (checks ++ checks') = claimed checks ++ claimed checks' :=
  List.filterMap_append

theorem claimed_address (a : String) (checks : List Check) :
    claimed (.address a :: checks) = claimed checks := rfl

theorem claimed_claim (name : String) (checks : List Check) :
    claimed (.claim name :: checks) = name :: claimed checks := rfl

namespace Value

/-- A value claims no name. -/
theorem claim?_of_check? {v : Value} {c : Check} (h : v.check? = some c) : c.claim? = none := by
  cases v <;> simp only [check?, Option.some.injEq, reduceCtorEq] at h
  all_goals subst h; rfl

theorem check?_eq_use_iff {v : Value} {name : String} :
    v.check? = some (.use name) ↔ v.bucket? = some name ∨ v.proof? = some name := by
  cases v <;> simp [check?, bucket?, proof?]

theorem address_mem_checks_iff {vs : List Value} {a : String} :
    .address a ∈ (leavesOf vs).filterMap check? ↔ a ∈ addressesOf vs := by
  rw [addressesOf, List.mem_filterMap, List.mem_filterMap]
  refine exists_congr fun v => and_congr_right fun _ => ?_
  cases v <;> simp [check?, address?]

end Value

/-- Names are claimed once, none of them is empty, and only claimed ones are used. -/
structure WellNamed (checks : List Check) : Prop where
  claimed_once : (claimed checks).Nodup
  claimed_ne : "" ∉ claimed checks
  used_claimed : AtEach (fun before c => ∀ name, c = .use name → name ∈ claimed before) checks

/-- The check does not fail over a name after the checks `before`. -/
def Check.NameFits (before : List Check) : Check → Prop
  | address _ => True
  | claim name => name ≠ "" ∧ name ∉ claimed before
  | use name => name ∈ claimed before

theorem WellNamed.atEach {checks : List Check} (h : WellNamed checks) :
    AtEach Check.NameFits checks := by
  intro before c after he
  cases c with
  | address a => trivial
  | claim name =>
    have hnodup := h.claimed_once
    have hne := h.claimed_ne
    rw [he, claimed_append, claimed_claim] at hnodup hne
    refine ⟨fun hn => hne (by simp [hn]), fun hn => ?_⟩
    exact (List.nodup_append.1 hnodup).2.2 name hn name List.mem_cons_self rfl
  | use name => exact h.used_claimed before _ after he name rfl

/-- A check whose name fits fails over an address, or it claims its name. -/
theorem Check.run_yields {before : List Check} {names : List String} {c : Check}
    (hnames : ∀ n, n ∈ names ↔ n ∈ claimed before) (hc : c.NameFits before) :
    Yields (c.run names)
      (fun fault => ∃ a, c = .address a ∧ ¬Address.hasShape a ∧ fault = .invalidAddress a)
      fun names' => (∀ n, n ∈ names' ↔ n ∈ claimed (before ++ [c])) ∧
        ∀ a, c = .address a → Address.hasShape a := by
  cases c with
  | address a =>
    rw [run]
    by_cases ha : Address.hasShape a
    · rw [if_pos ha]
      exact ⟨by simp [claimed, claim?, hnames], fun _ he => by cases he; exact ha⟩
    · rw [if_neg ha]
      exact ⟨a, rfl, ha, rfl⟩
  | claim name =>
    have hfree : ¬names.contains name := by simpa [hnames] using hc.2
    rw [run, if_neg hc.1, if_neg hfree]
    exact ⟨fun n => by simp [claimed, claim?, hnames, or_comm], nofun⟩
  | use name =>
    have hthere : names.contains name := by simpa [NameFits, hnames] using hc
    rw [run, if_pos hthere]
    exact ⟨by simp [claimed, claim?, hnames], nofun⟩

theorem runAll_yields : ∀ (checks before : List Check) (names : List String),
    (∀ n, n ∈ names ↔ n ∈ claimed before) →
    AtEach (fun part => Check.NameFits (before ++ part)) checks →
    Yields (Check.runAll names checks)
      (fun fault => ∃ a, .address a ∈ checks ∧ ¬Address.hasShape a ∧ fault = .invalidAddress a)
      fun _ => ∀ a, .address a ∈ checks → Address.hasShape a
  | [], _, _, _, _ => fun _ ha => absurd ha List.not_mem_nil
  | c :: checks, before, names, hnames, hfit => by
    obtain ⟨hc, hchecks⟩ := AtEach.cons_iff.1 hfit
    rw [List.append_nil] at hc
    rw [Check.runAll, List.foldlM_cons]
    refine Yields.bind ((Check.run_yields hnames hc).mono ?_ fun _ h => h) ?_
    · rintro _ ⟨a, rfl, ha, rfl⟩
      exact ⟨a, List.mem_cons_self, ha, rfl⟩
    · rintro names' ⟨hnames', hshape⟩
      have hrest := runAll_yields checks (before ++ [c]) names' hnames' (by simpa using hchecks)
      refine hrest.mono ?_ fun _ h a ha => ?_
      · rintro _ ⟨a, ha, hs⟩
        exact ⟨a, List.mem_cons_of_mem _ ha, hs⟩
      · rcases List.mem_cons.1 ha with he | ha
        · exact hshape a he.symm
        · exact h a ha

/-- **Well named checks fail over an address that does not have the form of one,
    and over nothing else.** -/
theorem WellNamed.runAll {checks : List Check} (h : WellNamed checks) :
    Yields (Check.runAll [] checks)
      (fun fault => ∃ a, .address a ∈ checks ∧ ¬Address.hasShape a ∧ fault = .invalidAddress a)
      fun _ => ∀ a, .address a ∈ checks → Address.hasShape a :=
  runAll_yields checks [] [] (fun _ => Iff.rfl) (by simpa using h.atEach)

end LedgerClient.Manifest
