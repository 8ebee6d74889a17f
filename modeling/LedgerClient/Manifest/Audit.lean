/-
  The audit of a manifest: nothing it takes hold of is left behind.

  * `Holdings` is what is held at some point: the buckets created so far with a
    mark on the open ones, the live proofs, and whether the worktop was used;
  * `Holdings.step` checks one instruction, `audit` a whole manifest: every
    bucket is used up exactly once, every proof at most once, and a worktop
    that was used is swept into the initiating account at the end.
-/
import LedgerClient.Account
import LedgerClient.Manifest.Instruction
import LedgerClient.Text.Search

namespace LedgerClient.Manifest

open Text

/-- What a manifest holds after some of its instructions. -/
structure Holdings where
  /-- The buckets created so far; the open ones are marked. -/
  buckets : List (String × Bool)
  /-- The proofs that may be used. -/
  proofs : List String
  /-- Whether anything may have been put on the worktop. -/
  worktopUsed : Bool
deriving DecidableEq

namespace Holdings

/-- Nothing. -/
def none : Holdings := ⟨[], [], false⟩

/-- The mark of a bucket, where it was created. -/
def bucket? (h : Holdings) (name : String) : Option Bool :=
  h.buckets.lookup name

/-- The holdings with a bucket closed. -/
def close (h : Holdings) (name : String) : Holdings :=
  { h with buckets := h.buckets.map fun b => if b.1 = name then (b.1, false) else b }

/-! ## Steps -/

/-- Uses up one bucket in the instruction of the given index. -/
def consume (index : Nat) (h : Holdings) (name : String) : Except Fault Holdings :=
  match h.bucket? name with
  | Option.none => .error (.invalidManifest
      ("instruction " ++ numeral index ++ " uses unknown bucket '" ++ name ++ "'"))
  | some true => .ok (h.close name)
  | some false => .error (.strandedResource
      ("bucket '" ++ name ++ "' consumed more than once (instruction " ++ numeral index ++ ")"))

/-- Introduces a proof. -/
def introduce (h : Holdings) (name : String) : Except Fault Holdings :=
  if h.proofs.contains name then
    .error (.invalidManifest ("proof name '" ++ name ++ "' reused"))
  else .ok { h with proofs := name :: h.proofs }

/-- Uses a proof, which ends its life. -/
def useProof (index : Nat) (h : Holdings) (name : String) : Except Fault Holdings :=
  if h.proofs.contains name then .ok { h with proofs := h.proofs.filter (· != name) }
  else .error (.invalidManifest
    ("instruction " ++ numeral index ++ " uses unknown proof '" ++ name ++ "'"))

/-- What an instruction does to the proofs. -/
def stepProofs (index : Nat) (h : Holdings) : Instruction → Except Fault Holdings
  | .popFromAuthZone p | .createProofFromBucket _ p => h.introduce p
  | .pushToAuthZone p | .dropProof p => h.useProof index p
  | .dropAllProofs => .ok { h with proofs := [] }
  | .callMethod _ _ args | .callFunction _ _ _ args =>
    (Value.proofsOf args).foldlM (useProof index) h
  | _ => .ok h

/-- Refuses a proof of a bucket that is not open. -/
def checkProven (index : Nat) (h : Holdings) : Instruction → Except Fault Unit
  | .createProofFromBucket b _ =>
    if h.bucket? b = some true then .ok ()
    else .error (.invalidManifest
      ("instruction " ++ numeral index ++ " proves unknown or consumed bucket '" ++ b ++ "'"))
  | _ => .ok ()

/-- Creates the bucket of an instruction, if it has one. -/
def create (h : Holdings) (i : Instruction) : Except Fault Holdings :=
  match i.created? with
  | Option.none => .ok h
  | some name =>
    if (h.bucket? name).isSome then
      .error (.invalidManifest ("bucket name '" ++ name ++ "' reused"))
    else .ok { h with buckets := h.buckets ++ [(name, true)] }

/-- The holdings after the instruction of the given index. -/
def step (index : Nat) (h : Holdings) (i : Instruction) : Except Fault Holdings := do
  let h ← i.consumed.foldlM (consume index) h
  let h ← h.stepProofs index i
  h.checkProven index i
  let h ← h.create i
  pure { h with worktopUsed := h.worktopUsed || i.fillsWorktop }

/-- The holdings after instructions of which the first has the given index. -/
def run (index : Nat) (h : Holdings) : Manifest → Except Fault Holdings
  | [] => .ok h
  | i :: is => do run (index + 1) (← h.step index i) is

/-! ## The end -/

/-- Puts a name into a sorted list. -/
def insertSorted (name : String) : List String → List String
  | [] => [name]
  | n :: ns => if name ≤ n then name :: n :: ns else n :: insertSorted name ns

/-- The open buckets, sorted by name. -/
def stranded (h : Holdings) : List String :=
  ((h.buckets.filter (·.2)).map (·.1)).foldr insertSorted []

/-- Refuses a last instruction that does not sweep the worktop into the account. -/
def checkSweep (initiator : AccountRef) : Option Instruction → Except Fault Unit
  | some (.depositBatch account _) =>
    if account = initiator.address then .ok ()
    else .error (.strandedResource
      ("final deposit goes to " ++ account ++ " instead of the initiating account " ++
        initiator.address))
  | some (.callMethod address _ args) =>
    if address = initiator.address ∧ Value.anyTakesEntireWorktop args then .ok ()
    else .error notSwept
  | _ => .error notSwept
where
  /-- The worktop is not swept at all. -/
  notSwept : Fault :=
    .strandedResource "manifest does not end by depositing the worktop to the initiating account"

/-- Refuses to end with open buckets, or with a used worktop that is not swept. -/
def finish (h : Holdings) (initiator : AccountRef) (last : Option Instruction) :
    Except Fault Unit :=
  if h.stranded.isEmpty then
    if h.worktopUsed then checkSweep initiator last else .ok ()
  else .error (.strandedResource ("bucket(s) never consumed: " ++ joinWith ", " h.stranded))

end Holdings

/-- Checks that a manifest of the given account leaves nothing behind. -/
def audit (m : Manifest) (initiator : AccountRef) : Except Fault Unit := do
  let h ← Holdings.none.run 0 m
  h.finish initiator m.getLast?

end LedgerClient.Manifest
