/-
  Building manifests: calls in the name of an account, checked one by one.

  * `Call` is what a caller may ask for; `Call.instruction` is the step it adds,
    with the initiating account as the acting one;
  * `Builder.add` checks a call and adds its step. The first fault is
    remembered and later ones are not looked at, so calls can be chained;
  * `Builder.build` is the manifest, once it has passed the audit.
-/
import LedgerClient.Manifest.Audit

namespace LedgerClient.Manifest

/-- A call of a builder. -/
inductive Call where
  | lockFee (amount : Amount)
  | withdraw (resource : String) (amount : Amount)
  | withdrawNonFungibles (resource : String) (ids : List String)
  | createProofOfAmount (resource : String) (amount : Amount)
  | takeAll (resource bucket : String)
  | take (resource : String) (amount : Amount) (bucket : String)
  | takeNonFungibles (resource : String) (ids : List String) (bucket : String)
  | returnToWorktop (bucket : String)
  | assertWorktopContains (resource : String) (amount : Amount)
  | popFromAuthZone (proof : String)
  | pushToAuthZone (proof : String)
  | createProofFromBucket (bucket proof : String)
  | dropProof (proof : String)
  | dropAllProofs
  | burn (bucket : String)
  | callMethod (address method : String) (args : List Value)
  | callFunction (package blueprint function : String) (args : List Value)
  /-- Sweeps the worktop into the initiating account. -/
  | deposit (mode : DepositMode)

/-- The step that a call adds. -/
def Call.instruction (initiator : AccountRef) : Call → Instruction
  | lockFee amount => .lockFee initiator.address amount
  | withdraw resource amount => .withdraw initiator.address resource amount
  | withdrawNonFungibles resource ids => .withdrawNonFungibles initiator.address resource ids
  | createProofOfAmount resource amount => .createProofOfAmount initiator.address resource amount
  | takeAll resource bucket => .takeAll resource bucket
  | take resource amount bucket => .take resource amount bucket
  | takeNonFungibles resource ids bucket => .takeNonFungibles resource ids bucket
  | returnToWorktop bucket => .returnToWorktop bucket
  | assertWorktopContains resource amount => .assertWorktopContains resource amount
  | popFromAuthZone proof => .popFromAuthZone proof
  | pushToAuthZone proof => .pushToAuthZone proof
  | createProofFromBucket bucket proof => .createProofFromBucket bucket proof
  | dropProof proof => .dropProof proof
  | dropAllProofs => .dropAllProofs
  | burn bucket => .burn bucket
  | callMethod address method args => .callMethod address method args
  | callFunction package blueprint function args => .callFunction package blueprint function args
  | deposit mode => .depositBatch initiator.address mode

/-- A manifest under construction. -/
structure Builder where
  initiator : AccountRef
  /-- The steps added so far. -/
  steps : Manifest
  /-- The names of the buckets and proofs claimed so far. -/
  names : List String
  /-- The first fault. -/
  fault : Option Fault

namespace Builder

/-! ## Checks -/

/-- Remembers a fault, unless there was one before. -/
def fail (b : Builder) (fault : Fault) : Builder :=
  { b with fault := b.fault <|> some fault }

/-- Checks the form of an address. -/
def checkAddress (b : Builder) (address : String) : Builder :=
  if Address.hasShape address then b else b.fail (.invalidAddress address)

/-- Claims a new name for a bucket or proof. -/
def claim (b : Builder) (name : String) : Builder :=
  if name = "" then b.fail (.invalidManifest "empty bucket/proof name")
  else if b.names.contains name then
    b.fail (.invalidManifest ("name '" ++ name ++ "' already used"))
  else { b with names := name :: b.names }

/-- Checks that a name has been claimed. -/
def require (b : Builder) (name : String) : Builder :=
  if b.names.contains name then b
  else b.fail (.invalidManifest ("unknown bucket/proof '" ++ name ++ "'"))

mutual

/-- Checks the addresses and names in a value. -/
def checkValue (b : Builder) : Value → Builder
  | .address a => b.checkAddress a
  | .bucket name | .proof name => b.require name
  | .enumeration _ vs | .array _ vs | .tuple vs => b.checkValues vs
  | _ => b

/-- Checks the addresses and names in the values of a list. -/
def checkValues (b : Builder) : List Value → Builder
  | [] => b
  | v :: vs => (b.checkValue v).checkValues vs

end

/-- Checks a call. -/
def check (b : Builder) : Call → Builder
  | .lockFee _ | .dropAllProofs | .deposit _ => b
  | .withdraw resource _ | .withdrawNonFungibles resource _ | .createProofOfAmount resource _
  | .assertWorktopContains resource _ => b.checkAddress resource
  | .takeAll resource bucket | .take resource _ bucket | .takeNonFungibles resource _ bucket =>
    (b.checkAddress resource).claim bucket
  | .returnToWorktop name | .pushToAuthZone name | .dropProof name | .burn name => b.require name
  | .popFromAuthZone proof => b.claim proof
  | .createProofFromBucket bucket proof => (b.require bucket).claim proof
  | .callMethod address _ args | .callFunction address _ _ args =>
    (b.checkAddress address).checkValues args

/-! ## Building -/

/-- A manifest of the given account, without steps. -/
def start (initiator : AccountRef) : Builder :=
  checkAddress ⟨initiator, [], [], none⟩ initiator.address

/-- Checks a call and adds its step. -/
def add (b : Builder) (call : Call) : Builder :=
  let b := b.check call
  { b with steps := b.steps ++ [call.instruction b.initiator] }

/-- Adds calls one after the other. -/
def addAll (b : Builder) (calls : List Call) : Builder :=
  calls.foldl add b

/-- The manifest, once it has passed the audit. -/
def build (b : Builder) : Except Fault Manifest :=
  match b.fault with
  | some fault => .error fault
  | none => (audit b.steps b.initiator).map fun _ => b.steps

end Builder

/-- The manifest of calls in the name of an account. -/
def buildCalls (initiator : AccountRef) (calls : List Call) : Except Fault Manifest :=
  ((Builder.start initiator).addAll calls).build

end LedgerClient.Manifest
