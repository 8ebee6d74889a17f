/-
  What a builder returns: the first of its checks that fails, or the verdict of the audit.

  * `Check.Fails before c fault` says what a check finds fault with after the checks `before`,
    and `FailsFirst checks fault` which fault is the first one of a list;
  * `decides_runAll`: checks are done to the end where each of them passes;
  * `build_tells_first_fault`: a builder answers with the first fault of its checks, whatever
    is called for after it, and without a fault with what the audit says of the steps.
-/
import LedgerClient.Proofs.Manifest.Checks

namespace LedgerClient.Manifest

/-! ## Checks that fail -/

/-- What a check finds fault with after the checks `before`. Buckets and proofs share their
    names. -/
inductive Check.Fails (before : List Check) : Check → Fault → Prop
  | address {a} : ¬Address.hasShape a → Fails before (.address a) (.invalidAddress a)
  | blank : Fails before (.claim "") (.invalidManifest "empty bucket/proof name")
  | taken {name} : name ≠ "" → name ∈ claimed before →
      Fails before (.claim name) (.invalidManifest ("name '" ++ name ++ "' already used"))
  | unknown {name} : name ∉ claimed before →
      Fails before (.use name) (.invalidManifest ("unknown bucket/proof '" ++ name ++ "'"))

/-- The check finds no fault after the checks `before`. -/
def Check.Passes (before : List Check) (c : Check) : Prop :=
  ∀ fault, ¬c.Fails before fault

/-- The first check that does not pass fails with this fault. -/
def FailsFirst (checks : List Check) (fault : Fault) : Prop :=
  ∃ before c after, checks = before ++ c :: after ∧ AtEach Check.Passes before ∧
    c.Fails before fault

theorem FailsFirst.append {checks : List Check} {fault : Fault} (h : FailsFirst checks fault)
    (more : List Check) : FailsFirst (checks ++ more) fault := by
  obtain ⟨before, c, after, rfl, hpass, hfail⟩ := h
  exact ⟨before, c, after ++ more, by simp, hpass, hfail⟩

/-- Where no check is the first to fail, none fails. -/
theorem atEach_passes {checks : List Check} (h : ∀ fault, ¬FailsFirst checks fault) :
    AtEach Check.Passes checks := by
  obtain hpass | ⟨before, c, after, he, hpass, hfail⟩ := AtEach.or_first Check.Passes checks
  · exact hpass
  · exact absurd (fun fault hfault => h fault ⟨before, c, after, he, hpass, hfault⟩) hfail

/-! ## Checks that are done -/

/-- The names are those that the checks `before` claimed. -/
def Names (names : List String) (before : List Check) : Prop :=
  ∀ name, name ∈ names ↔ name ∈ claimed before

namespace Check

variable {before : List Check} {names : List String} {c : Check}

theorem run_of_fails (hnames : Names names before) {fault : Fault} (h : c.Fails before fault) :
    c.run names = .error fault := by
  cases h with
  | address ha => rw [run, if_neg ha]
  | blank => rw [run, if_pos rfl]
  | taken hne ht => rw [run, if_neg hne, if_pos (by simpa [hnames _] using ht)]
  | unknown hu => rw [run, if_neg (by simpa [hnames _] using hu)]

/-- **One check** is done where it passes, and then takes its name. -/
theorem decides_run (hnames : Names names before) (c : Check) :
    Decides (c.run names) (c.Passes before) fun names' => Names names' (before ++ [c]) := by
  have hstay : c.claim? = none → Names names (before ++ [c]) := by
    intro hc name
    rw [claimed_append, hnames name]
    simp [claimed, hc]
  by_cases hfail : ∃ fault, c.Fails before fault
  · obtain ⟨fault, hfault⟩ := hfail
    rw [run_of_fails hnames hfault]
    exact fun hpass => hpass fault hfault
  have hpass : c.Passes before := not_exists.1 hfail
  cases c with
  | address a =>
    rw [run, if_pos (Classical.not_not.1 fun ha => hpass _ (.address ha))]
    exact ⟨hpass, hstay rfl⟩
  | claim name =>
    have hne : name ≠ "" := by
      rintro rfl
      exact hpass _ .blank
    have hfree : name ∉ claimed before := fun ht => hpass _ (.taken hne ht)
    rw [run, if_neg hne, if_neg (by simpa [hnames _] using hfree)]
    refine ⟨hpass, fun n => ?_⟩
    rw [claimed_append, List.mem_cons, hnames n]
    simp [claimed, claim?, or_comm]
  | use name =>
    have hthere : name ∈ claimed before := Classical.not_not.1 fun hu => hpass _ (.unknown hu)
    rw [run, if_pos (by simpa [hnames _] using hthere)]
    exact ⟨hpass, hstay rfl⟩

end Check

/-- **Checks are done to the end where each of them passes.** -/
theorem decides_runAll (checks : List Check) :
    Decides (Check.runAll [] checks) (AtEach Check.Passes checks) fun names =>
      Names names checks := by
  have h := decides_foldlM (fun before c => Check.Passes before c) Names
    (fun _ _ c hnames => Check.decides_run hnames c) checks [] [] fun _ => Iff.rfl
  simp only [List.nil_append] at h
  exact h

/-- Checks end with the first fault. -/
theorem runAll_of_failsFirst {checks : List Check} {fault : Fault} (h : FailsFirst checks fault) :
    Check.runAll [] checks = .error fault := by
  obtain ⟨before, c, after, rfl, hpass, hfail⟩ := h
  obtain ⟨names, hbefore⟩ := (decides_runAll before).ok_iff.2 hpass
  have hnames : Names names before := (decides_runAll before).result hbefore
  rw [Check.runAll, List.foldlM_append]
  change Check.runAll [] before >>= _ = _
  rw [hbefore]
  change (c :: after).foldlM Check.run names = _
  rw [List.foldlM_cons, Check.run_of_fails hnames hfail]
  rfl

/-! ## What is built -/

/-- **A builder tells its first fault.** The checks are those of the initiator and then of the
    calls in order, arguments from left to right at any depth. What comes after the first one
    that fails makes no difference. Where none fails, the steps of the calls are audited as they
    are, one for each call and in the name of the initiator. -/
theorem build_tells_first_fault (initiator : AccountRef) (calls : List Call) :
    (∀ fault, FailsFirst (checksOf initiator calls) fault →
      ∀ more, buildCalls initiator (calls ++ more) = .error fault) ∧
    ((∀ fault, ¬FailsFirst (checksOf initiator calls) fault) →
      buildCalls initiator calls =
        (audit (calls.map (Call.instruction initiator)) initiator).map fun _ =>
          calls.map (Call.instruction initiator)) := by
  constructor
  · intro fault hfirst more
    have hmore : checksOf initiator (calls ++ more) =
        checksOf initiator calls ++ more.flatMap Call.checks := by
      rw [checksOf, checksOf, List.flatMap_append, List.cons_append]
    rw [buildCalls_eq, hmore, runAll_of_failsFirst (hfirst.append _)]
    rfl
  · intro hnone
    obtain ⟨names, hchecks⟩ := (decides_runAll _).ok_iff.2 (atEach_passes hnone)
    rw [buildCalls_eq, hchecks]
    rfl

/-- Also where a proof is to have the name of a bucket, and a later call has a fault of its own. -/
theorem build_tells_first_fault_shared_name :
    let account : AccountRef := ⟨"account_rdx1qqqqqq", by decide, by decide⟩
    let calls : List Call := [.takeAll "resource_rdx1qqqqqq" "badge", .popFromAuthZone "badge"]
    let fault : Fault := .invalidManifest "name 'badge' already used"
    FailsFirst (checksOf account calls) fault ∧
      buildCalls account (calls ++ [.callMethod "nowhere" "claim" []]) = .error fault := by
  intro account calls fault
  have hpass : AtEach Check.Passes
      [.address "account_rdx1qqqqqq", .address "resource_rdx1qqqqqq", .claim "badge"] :=
    (decides_runAll _).ok_iff.1 ⟨["badge"], by rfl⟩
  have hfirst : FailsFirst (checksOf account calls) fault :=
    ⟨_, .claim "badge", [], rfl, hpass, .taken (by decide) (by decide)⟩
  exact ⟨hfirst, (build_tells_first_fault account calls).1 fault hfirst _⟩

end LedgerClient.Manifest
