/-
  The worktop: what is withdrawn and not yet taken, counted exactly.

  * `Worktop.step` is what an instruction does to the worktop and to the buckets
    filled from it. It fails where more is asked for than there is, and at the
    instructions that are not about amounts alone;
  * `Worktop.run_conserves`: of each resource, what instructions withdraw is on
    the worktop or in the buckets afterwards.
-/
import LedgerClient.Manifest.Instruction
import Mathlib.Algebra.Ring.Nat

namespace LedgerClient.Manifest

/-- What a bucket holds: a number of units of a resource. -/
structure Content where
  resource : String
  units : Nat
deriving DecidableEq

/-- The units of each resource on the worktop, and the buckets filled from it. -/
structure Worktop where
  units : String → Nat
  buckets : List (String × Content)

/-- The units of a resource that an instruction withdraws. -/
def Instruction.withdrawn (resource : String) : Instruction → Nat
  | withdraw _ r amount => if r = resource then amount.atto else 0
  | _ => 0

/-- The units of a resource that instructions withdraw. -/
def withdrawn (m : Manifest) (resource : String) : Nat :=
  (m.map (Instruction.withdrawn resource)).sum

/-- The units of a resource in contents of buckets. -/
def unitsIn (contents : List Content) (resource : String) : Nat :=
  (contents.map fun c => if c.resource = resource then c.units else 0).sum

namespace Worktop

/-! ## Steps -/

/-- Nothing on the worktop. -/
def empty : Worktop := ⟨fun _ => 0, []⟩

/-- What a bucket holds. -/
def bucket? (w : Worktop) (name : String) : Option Content :=
  w.buckets.lookup name

/-- Puts units of a resource on the worktop. -/
def put (w : Worktop) (resource : String) (units : Nat) : Worktop :=
  { w with units := fun r => if r = resource then w.units r + units else w.units r }

/-- Moves units of a resource into a new bucket, where there are as many. -/
def fill (w : Worktop) (bucket : String) (c : Content) : Option Worktop :=
  if c.units ≤ w.units c.resource then
    some ⟨fun r => if r = c.resource then w.units r - c.units else w.units r,
      w.buckets ++ [(bucket, c)]⟩
  else none

/-- What an instruction does to the worktop. -/
def step (w : Worktop) : Instruction → Option Worktop
  | .withdraw _ resource amount => some (w.put resource amount.atto)
  | .take resource amount bucket => w.fill bucket ⟨resource, amount.atto⟩
  | .takeAll resource bucket => w.fill bucket ⟨resource, w.units resource⟩
  | .assertWorktopContains resource amount =>
    if amount.atto ≤ w.units resource then some w else none
  | .lockFee .. | .createProofOfAmount .. | .popFromAuthZone _ | .pushToAuthZone _
  | .createProofFromBucket .. | .dropProof _ | .dropAllProofs => some w
  | _ => none

/-- What instructions do to the worktop. -/
def run (w : Worktop) (m : Manifest) : Option Worktop :=
  m.foldlM step w

theorem run_nil (w : Worktop) : w.run [] = some w := rfl

theorem run_cons (w : Worktop) (i : Instruction) (m : Manifest) :
    w.run (i :: m) = (w.step i).bind fun w' => w'.run m :=
  List.foldlM_cons

theorem run_append (w : Worktop) (m m' : Manifest) :
    w.run (m ++ m') = (w.run m).bind fun w' => w'.run m' :=
  List.foldlM_append

/-! ## Conservation -/

/-- The units of a resource on the worktop and in the buckets. -/
def total (w : Worktop) (resource : String) : Nat :=
  w.units resource + unitsIn (w.buckets.map (·.2)) resource

theorem total_put (w : Worktop) (resource r : String) (units : Nat) :
    (w.put resource units).total r = w.total r + if resource = r then units else 0 := by
  unfold total put
  by_cases h : r = resource
  · simp only [h, if_true]
    omega
  · simp [h, Ne.symm h]

theorem total_fill {w w' : Worktop} {bucket : String} {c : Content} (h : w.fill bucket c = some w')
    (r : String) : w'.total r = w.total r := by
  unfold fill at h
  split at h
  · rename_i hle
    obtain rfl := Option.some.inj h
    by_cases hr : r = c.resource
    · subst hr
      simp only [total, unitsIn, List.map_append, List.map_map, List.map_cons, List.map_nil,
        List.sum_append, List.sum_cons, List.sum_nil, if_true]
      omega
    · simp [total, unitsIn, hr, Ne.symm hr]
  · cases h

/-- A step changes the total of a resource by what it withdraws. -/
theorem step_conserves {w w' : Worktop} {i : Instruction} (h : w.step i = some w') (r : String) :
    w'.total r = w.total r + i.withdrawn r := by
  cases i with
  | withdraw _ resource amount =>
    obtain rfl := Option.some.inj h
    exact w.total_put resource r amount.atto
  | take _ _ _ | takeAll _ _ => exact total_fill h r
  | assertWorktopContains resource amount =>
    obtain ⟨-, hw⟩ := Option.ite_none_right_eq_some.1 h
    obtain rfl := Option.some.inj hw
    rfl
  | lockFee _ _ | createProofOfAmount _ _ _ | popFromAuthZone _ | pushToAuthZone _
  | createProofFromBucket _ _ | dropProof _ | dropAllProofs =>
    obtain rfl := Option.some.inj h
    rfl
  | _ => cases h

/-- **What is withdrawn is on the worktop or in the buckets.** -/
theorem run_conserves (r : String) : ∀ {m : Manifest} {w w' : Worktop}, w.run m = some w' →
    w'.total r = w.total r + withdrawn m r
  | [], w, w', h => by
    obtain rfl := Option.some.inj h
    rfl
  | i :: m, w, w', h => by
    rw [run_cons] at h
    obtain ⟨w₁, hi, hm⟩ := Option.bind_eq_some_iff.1 h
    rw [run_conserves r hm, step_conserves hi r, withdrawn, withdrawn, List.map_cons,
      List.sum_cons, Nat.add_assoc]

/-! ## Withdrawing and taking -/

theorem put_zero (w : Worktop) (resource : String) : w.put resource 0 = w := by
  simp [put]

theorem put_comm (w : Worktop) (r r' : String) (u u' : Nat) :
    (w.put r u).put r' u' = (w.put r' u').put r u := by
  simp only [put]
  congr 1
  funext s
  split <;> split <;> omega

/-- Taking a part of what was put there leaves the rest. -/
theorem fill_put (w : Worktop) (bucket resource : String) (u rest : Nat) :
    (w.put resource (u + rest)).fill bucket ⟨resource, u⟩ =
      some (put ⟨w.units, w.buckets ++ [(bucket, ⟨resource, u⟩)]⟩ resource rest) := by
  have hle : u ≤ w.units resource + (u + rest) := by omega
  simp only [fill, put, if_true, if_pos hle]
  congr 2
  funext r
  split <;> omega

theorem fill_put_self (w : Worktop) (bucket resource : String) (u : Nat) :
    (w.put resource u).fill bucket ⟨resource, u⟩ =
      some ⟨w.units, w.buckets ++ [(bucket, ⟨resource, u⟩)]⟩ := by
  have h := w.fill_put bucket resource u 0
  rwa [Nat.add_zero, put_zero] at h

end Worktop

end LedgerClient.Manifest
