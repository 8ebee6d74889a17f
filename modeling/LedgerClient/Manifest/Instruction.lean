/-
  Instructions: the steps of a transaction, and their text.

  * `Manifest.Instruction` is a step, a `Manifest` a list of them;
  * `created?`, `consumed` and `fillsWorktop` say what a step does to buckets
    and to the worktop;
  * `Instruction.text` is the keyword, one line per argument and a line with a
    semicolon; `Manifest.render` is the text of a manifest.
-/
import LedgerClient.Manifest.Value

namespace LedgerClient

open Text

namespace Manifest

/-- How what is left on the worktop returns to an account. -/
inductive DepositMode where
  /-- fails where the account refuses it -/
  | deposit
  /-- puts refused resources back on the worktop -/
  | tryOrRefund
  /-- aborts the transaction where the account refuses it -/
  | tryOrAbort
deriving DecidableEq, Repr

namespace DepositMode

/-- The account's method for a mode. -/
def method : DepositMode → String
  | deposit => "deposit_batch"
  | tryOrRefund => "try_deposit_batch_or_refund"
  | tryOrAbort => "try_deposit_batch_or_abort"

/-- Whether the method takes the badge of an authorized depositor. -/
def takesBadge : DepositMode → Bool
  | deposit => false
  | _ => true

end DepositMode

/-- A step of a transaction. -/
inductive Instruction where
  | lockFee (account : String) (amount : Amount)
  | withdraw (account resource : String) (amount : Amount)
  | withdrawNonFungibles (account resource : String) (ids : List String)
  | createProofOfAmount (account resource : String) (amount : Amount)
  | takeAll (resource bucket : String)
  | take (resource : String) (amount : Amount) (bucket : String)
  | takeNonFungibles (resource : String) (ids : List String) (bucket : String)
  | returnToWorktop (bucket : String)
  | assertWorktopContains (resource : String) (amount : Amount)
  | popFromAuthZone (proof : String)
  | pushToAuthZone (proof : String)
  | createProofFromBucket (bucket proof : String)
  | dropProof (proof : String)
  | dropAllProofs
  | burn (bucket : String)
  | callMethod (address method : String) (args : List Value)
  | callFunction (package blueprint function : String) (args : List Value)
  | depositBatch (account : String) (mode : DepositMode)

namespace Instruction

/-! ## Buckets and the worktop -/

/-- The bucket a step creates. -/
def created? : Instruction → Option String
  | takeAll _ b | take _ _ b | takeNonFungibles _ _ b => some b
  | _ => none

/-- The buckets a step uses up, one after the other. -/
def consumed : Instruction → List String
  | returnToWorktop b | burn b => [b]
  | callMethod _ _ args | callFunction _ _ _ args => Value.bucketsOf args
  | _ => []

/-- Whether a step may leave resources on the worktop. -/
def fillsWorktop : Instruction → Bool
  | withdraw .. | withdrawNonFungibles .. | returnToWorktop _ | callMethod .. | callFunction .. =>
    true
  | _ => false

/-! ## Text -/

/-- The keyword of a step. -/
def keyword : Instruction → String
  | lockFee .. | withdraw .. | withdrawNonFungibles .. | createProofOfAmount .. | callMethod ..
  | depositBatch .. => "CALL_METHOD"
  | takeAll .. => "TAKE_ALL_FROM_WORKTOP"
  | take .. => "TAKE_FROM_WORKTOP"
  | takeNonFungibles .. => "TAKE_NON_FUNGIBLES_FROM_WORKTOP"
  | returnToWorktop _ => "RETURN_TO_WORKTOP"
  | assertWorktopContains .. => "ASSERT_WORKTOP_CONTAINS"
  | popFromAuthZone _ => "POP_FROM_AUTH_ZONE"
  | pushToAuthZone _ => "PUSH_TO_AUTH_ZONE"
  | createProofFromBucket .. => "CREATE_PROOF_FROM_BUCKET_OF_ALL"
  | dropProof _ => "DROP_PROOF"
  | dropAllProofs => "DROP_ALL_PROOFS"
  | burn _ => "BURN_RESOURCE"
  | callFunction .. => "CALL_FUNCTION"

/-- The arguments of a step as values. -/
def args : Instruction → List Value
  | lockFee account amount => [.address account, .string "lock_fee", .decimal amount]
  | withdraw account resource amount =>
    [.address account, .string "withdraw", .address resource, .decimal amount]
  | withdrawNonFungibles account resource ids =>
    [.address account, .string "withdraw_non_fungibles", .address resource, .localIds ids]
  | createProofOfAmount account resource amount =>
    [.address account, .string "create_proof_of_amount", .address resource, .decimal amount]
  | takeAll resource bucket => [.address resource, .bucket bucket]
  | take resource amount bucket => [.address resource, .decimal amount, .bucket bucket]
  | takeNonFungibles resource ids bucket => [.address resource, .localIds ids, .bucket bucket]
  | returnToWorktop bucket | burn bucket => [.bucket bucket]
  | assertWorktopContains resource amount => [.address resource, .decimal amount]
  | popFromAuthZone proof | pushToAuthZone proof | dropProof proof => [.proof proof]
  | createProofFromBucket bucket proof => [.bucket bucket, .proof proof]
  | dropAllProofs => []
  | callMethod address method args => .address address :: .string method :: args
  | callFunction package blueprint function args =>
    .address package :: .string blueprint :: .string function :: args
  | depositBatch account mode =>
    [.address account, .string mode.method, .entireWorktop] ++
      if mode.takesBadge then [.absent] else []

/-- The characters of a step: its keyword, a line per argument, a semicolon. -/
def chars (i : Instruction) : List Char :=
  i.keyword.toList ++ i.args.flatMap (fun v => '\n' :: ("    ".toList ++ v.chars)) ++ ['\n', ';']

/-- The text of a step. -/
def text (i : Instruction) : String :=
  String.ofList i.chars

end Instruction

end Manifest

/-! ## Manifests -/

/-- The steps of a transaction in order. -/
abbrev Manifest := List Manifest.Instruction

namespace Manifest

/-- The characters of a manifest, a line end between its steps. -/
def renderChars : Manifest → List Char
  | [] => []
  | [i] => i.chars
  | i :: is => i.chars ++ '\n' :: renderChars is

/-- The text of a manifest, as it is handed to the wallet. -/
def render (m : Manifest) : String :=
  String.ofList (renderChars m)

end Manifest

end LedgerClient
