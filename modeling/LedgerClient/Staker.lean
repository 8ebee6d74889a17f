/-
  Staking positions: the data of a staker's badge.

  * `StakerInfo.ofFields` reads a position from the data fields: the validator,
    its name, the amount being unstaked, the epoch at which that is done, the
    amount that can be withdrawn and the amount staked;
  * numbers come with decorations such as `Decimal("5")` or `100 XRD`, which
    are taken off.
-/
import LedgerClient.Amount
import LedgerClient.Json

namespace LedgerClient

open Text

/-- A staking position. -/
structure StakerInfo where
  validator : String
  validatorName : String
  unstaking : Amount
  unstakeDoneEpoch : Nat
  withdrawable : Amount
  staked : Amount
deriving DecidableEq

namespace StakerInfo

/-- The field at a place. -/
def field (fields : List String) (place : Nat) (name : String) : Except Fault String :=
  match fields[place]? with
  | some field => .ok field
  | none => .error (.schemaMismatch name "staker data field" "missing")

/-- The amount in the field at a place. -/
def amount (fields : List String) (place : Nat) (name : String) : Except Fault Amount := do
  let raw ← field fields place name
  Amount.parseOr (.schemaMismatch name "Decimal" raw) (stripDecorations raw)

/-- The characters in reverse without as many `46u` as they start with. -/
def dropReversedSuffix : List Char → List Char
  | '4' :: '6' :: 'u' :: rest => dropReversedSuffix rest
  | cs => cs

/-- The text without as many `u64` as it ends with. -/
def dropSuffix (s : String) : String :=
  String.ofList (dropReversedSuffix s.toList.reverse).reverse

/-- The epoch in the field at a place. -/
def epoch (fields : List String) (place : Nat) (name : String) : Except Fault Nat := do
  let raw ← field fields place name
  match bounded? (twoTo 64) (stripDecorations (dropSuffix raw)) with
  | some epoch => .ok epoch
  | none => .error (.schemaMismatch name "u64" raw)

/-- Reads a position; of several bad fields the epoch is reported first. -/
def ofFields (fields : List String) : Except Fault StakerInfo := do
  let unstakeDoneEpoch ← epoch fields 3 "unstake_done_epoch"
  let validator ← field fields 0 "validator"
  let validatorName ← field fields 1 "validator_name"
  let unstaking ← amount fields 2 "unstaking"
  let withdrawable ← amount fields 4 "withdrawable"
  let staked ← amount fields 5 "staked"
  pure ⟨validator, validatorName, unstaking, unstakeDoneEpoch, withdrawable, staked⟩

/-- Writes a position. -/
def toJson (s : StakerInfo) : Json :=
  .obj
    [("validator", .str s.validator), ("validator_name", .str s.validatorName),
     ("unstaking", .str s.unstaking.text),
     ("unstake_done_epoch", .str (numeral s.unstakeDoneEpoch)),
     ("withdrawable", .str s.withdrawable.text), ("staked", .str s.staked.text)]

end StakerInfo

end LedgerClient
