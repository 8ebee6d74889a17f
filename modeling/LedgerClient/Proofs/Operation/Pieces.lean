/-
  Pieces: what a template is put together from, up to its first call.

  * a `Piece` withdraws amounts and takes them into buckets, or it presents a
    badge as a proof. `Piece.portions` are the buckets it fills with what is in
    them, `Piece.proofs` the proofs it makes;
  * `run_gather`: pieces take off the worktop what they put there, so that it is
    empty again, whichever resources are the same.
-/
import LedgerClient.Operation.Template
import LedgerClient.Proofs.Manifest.Audit
import LedgerClient.Proofs.Manifest.Checks
import LedgerClient.Proofs.Manifest.Worktop

namespace LedgerClient.Operation

open Manifest

/-- A bucket and what it is filled with. -/
structure Portion where
  bucket : String
  resource : String
  amount : Amount

/-- What the bucket of a portion holds. -/
def Portion.content (p : Portion) : Content := ⟨p.resource, p.amount.atto⟩

/-- The bucket of a portion as it stands by the worktop. -/
def Portion.filled (p : Portion) : String × Content := (p.bucket, p.content)

/-- Calls that leave nothing on the worktop. -/
inductive Piece where
  /-- withdraws an amount and takes all there is of the resource -/
  | all (p : Portion)
  /-- withdraws an amount and takes just as much -/
  | exact (p : Portion)
  /-- withdraws two amounts of a resource together and takes them one by one -/
  | shared (resource bucket bucket' : String) (amount amount' total : Amount)
      (total_eq : total.atto = amount.atto + amount'.atto)
  /-- withdraws two amounts before it takes them -/
  | crossed (p q : Portion)
  /-- presents a badge as a proof -/
  | proven (badge proof : String)

namespace Piece

/-- The calls of a piece. -/
def calls : Piece → List Call
  | all p => withdrawAll p.resource p.amount p.bucket
  | exact p => withdrawExact p.resource p.amount p.bucket
  | shared resource bucket bucket' amount amount' total _ =>
    [.withdraw resource total, .take resource amount bucket, .take resource amount' bucket']
  | crossed p q =>
    [.withdraw p.resource p.amount, .withdraw q.resource q.amount,
     .take p.resource p.amount p.bucket, .take q.resource q.amount q.bucket]
  | proven badge proof => present badge proof

/-- The buckets a piece fills, in order. -/
def portions : Piece → List Portion
  | all p | exact p => [p]
  | shared resource bucket bucket' amount amount' _ _ =>
    [⟨bucket, resource, amount⟩, ⟨bucket', resource, amount'⟩]
  | crossed p q => [p, q]
  | proven _ _ => []

/-- The proofs a piece makes. -/
def proofs : Piece → List String
  | proven _ proof => [proof]
  | _ => []

/-- The names a piece claims, in order. -/
def names (p : Piece) : List String :=
  p.portions.map Portion.bucket ++ p.proofs

/-- The addresses a piece uses. -/
def addresses : Piece → List String
  | all p | exact p => [p.resource]
  | shared resource .. => [resource]
  | crossed p q => [p.resource, q.resource]
  | proven badge _ => [badge]

end Piece

/-- The calls of pieces, one after the other. -/
def gather (ps : List Piece) : List Call :=
  ps.flatMap Piece.calls

/-- The buckets that pieces fill, in order. -/
def portions (ps : List Piece) : List Portion :=
  ps.flatMap Piece.portions

/-- The proofs that pieces make, in order. -/
def proofs (ps : List Piece) : List String :=
  ps.flatMap Piece.proofs

/-! ## The worktop -/

/-- Nothing on the worktop, and the given buckets filled. -/
def cleared (filled : List (String × Content)) : Worktop :=
  ⟨fun _ => 0, filled⟩

theorem run_piece (account : AccountRef) (filled : List (String × Content)) (p : Piece) :
    (cleared filled).run (stepsOf account p.calls) =
      some (cleared (filled ++ p.portions.map Portion.filled)) := by
  cases p with
  | all p =>
    have hunits : ((cleared filled).put p.resource p.amount.atto).units p.resource
        = p.amount.atto := by simp [Worktop.put, cleared]
    show Worktop.run _ [.withdraw _ _ _, .takeAll _ _] = _
    simp only [Worktop.run_cons, Worktop.run_nil, Worktop.step, Option.bind_some, hunits,
      Worktop.fill_put_self]
    rfl
  | exact p =>
    show Worktop.run _ [.withdraw _ _ _, .take _ _ _] = _
    simp only [Worktop.run_cons, Worktop.run_nil, Worktop.step, Option.bind_some,
      Worktop.fill_put_self]
    rfl
  | shared resource bucket bucket' amount amount' total total_eq =>
    show Worktop.run _ [.withdraw _ _ _, .take _ _ _, .take _ _ _] = _
    simp only [Worktop.run_cons, Worktop.run_nil, Worktop.step, Option.bind_some, total_eq,
      Worktop.fill_put, Worktop.fill_put_self, List.append_assoc]
    rfl
  | crossed p q =>
    show Worktop.run _ [.withdraw _ _ _, .withdraw _ _ _, .take _ _ _, .take _ _ _] = _
    simp only [Worktop.run_cons, Worktop.run_nil, Worktop.step, Option.bind_some]
    -- the resources may be the same, so the first withdrawal is looked at last
    rw [Worktop.put_comm, Worktop.fill_put_self, Option.bind_some]
    show (((cleared (filled ++ [p.filled])).put q.resource q.amount.atto).fill q.bucket
      q.content).bind some = _
    rw [Portion.content, Worktop.fill_put_self, cleared, List.append_assoc]
    rfl
  | proven badge proof =>
    rw [Piece.portions, List.map_nil, List.append_nil]
    rfl

/-- **Pieces leave the worktop empty** and fill their buckets with what is stated. -/
theorem run_gather (account : AccountRef) : ∀ (ps : List Piece) (filled : List (String × Content)),
    (cleared filled).run (stepsOf account (gather ps)) =
      some (cleared (filled ++ (portions ps).map Portion.filled))
  | [], filled => by
    rw [portions, List.flatMap_nil, List.map_nil, List.append_nil]
    rfl
  | p :: ps, filled => by
    rw [gather, List.flatMap_cons, stepsOf, List.map_append, Worktop.run_append]
    have hp := run_piece account filled p
    rw [stepsOf] at hp
    rw [hp, Option.bind_some, portions, List.flatMap_cons, List.map_append, ← List.append_assoc]
    exact run_gather account ps _

/-- Each portion is found in its bucket. -/
theorem bucket?_cleared : ∀ {ps : List Portion}, (ps.map Portion.bucket).Nodup → ∀ p ∈ ps,
    (cleared (ps.map Portion.filled)).bucket? p.bucket = some p.content
  | [], _, p, hp => absurd hp List.not_mem_nil
  | q :: ps, hn, p, hp => by
    obtain ⟨hq, hn⟩ := List.nodup_cons.1 hn
    rw [Worktop.bucket?, cleared, List.map_cons, Portion.filled, List.lookup_cons]
    rcases List.mem_cons.1 hp with rfl | hp
    · rw [beq_self_eq_true]
    · have hne : (p.bucket == q.bucket) = false :=
        beq_eq_false_iff_ne.2 fun he => hq (he ▸ List.mem_map_of_mem hp)
      rw [hne]
      exact bucket?_cleared hn p hp

/-! ## Buckets and proofs -/

/-- The instructions of pieces: none uses up a bucket, proves one, or calls a method. -/
def gathers : Instruction → Bool
  | .withdraw .. | .take .. | .takeAll .. | .createProofOfAmount .. | .popFromAuthZone _ => true
  | _ => false

theorem gathers_of_mem (account : AccountRef) (ps : List Piece) :
    ∀ i ∈ stepsOf account (gather ps), gathers i := by
  intro i hi
  obtain ⟨call, hcall, rfl⟩ := List.mem_map.1 hi
  obtain ⟨p, -, hp⟩ := List.mem_flatMap.1 hcall
  cases p <;> simp only [Piece.calls, withdrawAll, withdrawExact, present, List.mem_cons,
    List.not_mem_nil, or_false] at hp
  all_goals rcases hp with rfl | rfl | rfl | rfl <;> rfl

theorem uses_of_gathers {i : Instruction} (h : gathers i) : i.uses = [] := by
  cases i with
  | returnToWorktop _ | burn _ | callMethod _ _ _ | callFunction _ _ _ _ => cases h
  | _ => rfl

/-- What the calls of pieces give, piece by piece. -/
theorem flatMap_gather {β : Type} {f : Call → List β} {g : Piece → List β}
    (h : ∀ p : Piece, p.calls.flatMap f = g p) (ps : List Piece) :
    (gather ps).flatMap f = ps.flatMap g := by
  rw [gather, List.flatMap_assoc, funext h]

theorem created_gather (account : AccountRef) (ps : List Piece) :
    created (stepsOf account (gather ps)) = (portions ps).map Portion.bucket := by
  rw [created, stepsOf, List.flatMap_map, portions, List.map_flatMap]
  exact flatMap_gather (fun p => by cases p <;> rfl) ps

theorem used_gather (account : AccountRef) (ps : List Piece) :
    used (stepsOf account (gather ps)) = [] :=
  List.flatMap_eq_nil_iff.2 fun i hi => uses_of_gathers (gathers_of_mem account ps i hi)

theorem proofEvents_gather (account : AccountRef) (ps : List Piece) :
    proofEvents (stepsOf account (gather ps)) = (proofs ps).map ProofEvent.introduce := by
  rw [proofEvents, stepsOf, List.flatMap_map, proofs, List.map_flatMap]
  exact flatMap_gather (fun p => by cases p <;> rfl) ps

/-! ## Checks -/

/-- The checks of the builder on pieces. -/
def checks (ps : List Piece) : List Check :=
  (gather ps).flatMap Call.checks

theorem claimed_checks (ps : List Piece) : claimed (checks ps) = ps.flatMap Piece.names := by
  rw [claimed, checks, List.filterMap_flatMap]
  exact flatMap_gather (fun p => by cases p <;> rfl) ps

theorem checks_eq (ps : List Piece) :
    checks ps = ps.flatMap fun p => p.calls.flatMap Call.checks :=
  flatMap_gather (fun _ => rfl) ps

theorem use_not_mem_checks (ps : List Piece) (name : String) : .use name ∉ checks ps := by
  rw [checks_eq, List.mem_flatMap]
  rintro ⟨p, -, hp⟩
  cases p <;> simp [Piece.calls, withdrawAll, withdrawExact, present, Call.checks] at hp

theorem address_mem_checks {ps : List Piece} {a : String} :
    .address a ∈ checks ps ↔ a ∈ ps.flatMap Piece.addresses := by
  rw [checks_eq, List.mem_flatMap, List.mem_flatMap]
  refine exists_congr fun p => and_congr_right fun _ => ?_
  cases p with
  | crossed p q =>
    simp only [Piece.calls, List.flatMap_cons, List.flatMap_nil, Call.checks, List.cons_append,
      List.nil_append, List.mem_cons, Check.address.injEq, reduceCtorEq, List.not_mem_nil, or_false,
      false_or, Piece.addresses]
    grind
  | _ =>
    simp [Piece.calls, withdrawAll, withdrawExact, present, Call.checks, Piece.addresses]

end LedgerClient.Operation
