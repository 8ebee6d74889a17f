/-
  Templates: the calls an operation expands to.

  * `Operation.calls` are the calls of an operation on the addresses of a book:
    it withdraws what the operation hands over, takes it into buckets, makes
    the call and sweeps the worktop back into the account;
  * `Operation.build` is the audited manifest of these calls.
-/
import LedgerClient.Config.AddressBook
import LedgerClient.Manifest.Builder
import LedgerClient.Operation

namespace LedgerClient

open Manifest

/-- The address of an entry that has to be there. -/
def AddressBook.require (book : AddressBook) (slot : Slot) : Except Fault String :=
  match book.get slot with
  | some address => .ok address
  | none => .error (.config (.own ("address '" ++ slot.name ++ "' is not configured")))

namespace Operation

/-- One badge. -/
def one : Amount := Amount.ofWhole 1 (by decide)

/-- The sum of two amounts of one withdrawal. -/
def sum (a b : Amount) : Except Fault Amount :=
  match a.checkedAdd b with
  | some total => .ok total
  | none => .error (.invalidAmount (a.text ++ " + " ++ b.text ++ " overflows"))

/-- Withdraws an amount and takes all there is of the resource. -/
def withdrawAll (resource : String) (amount : Amount) (bucket : String) : List Call :=
  [.withdraw resource amount, .takeAll resource bucket]

/-- Withdraws an amount and takes just as much. -/
def withdrawExact (resource : String) (amount : Amount) (bucket : String) : List Call :=
  [.withdraw resource amount, .take resource amount bucket]

/-- Presents a badge as a proof. -/
def present (badge proof : String) : List Call :=
  [.createProofOfAmount badge one, .popFromAuthZone proof]

/-- A number of a policy as an argument. -/
def policyValue (policy : Nat) : Value :=
  .integer .u128 policy

/-- The call of a method on the staker's badge, which is handed over. -/
def stakerCall (book : AddressBook) (method : String) (args : List Value) :
    Except Fault (List Call) := do
  let badge ← book.require .stakerBadge
  let validator ← book.require .validator
  pure (withdrawAll badge one "bucket1" ++
    [.callMethod validator method (args ++ [.bucket "bucket1"]), .deposit .deposit])

/-- The call of a method on principal tokens and the user's badge. -/
def principalCall (book : AddressBook) (method : String) (amount : Amount) :
    Except Fault (List Call) := do
  let component ← book.require .component
  let badge ← book.require .userBadge
  let principal ← book.require .principalToken
  let token ← book.require .underlyingToken
  let tokenValue ← Value.checkedAddress token
  pure (withdrawExact principal amount "bucket1" ++ withdrawExact badge one "bucket2" ++
    [.callMethod component method [.bucket "bucket1", .bucket "bucket2", tokenValue],
     .deposit .tryOrRefund])

/-- The call of an insurance method on an amount and a service fee, withdrawn
    together. -/
def insuredCall (book : AddressBook) (method bucket : String) (args : List Value)
    (amount fee : Amount) : Except Fault (List Call) := do
  let insurance ← book.require .insuranceComponent
  let resource ← book.require .feeResource
  let total ← sum amount fee
  pure [.withdraw resource total, .take resource fee "service_fee", .take resource amount bucket,
    .callMethod insurance method (args ++ [.bucket bucket, .bucket "service_fee"]),
    .deposit .deposit]

/-- The calls an operation expands to. -/
def calls (book : AddressBook) : Operation → Except Fault (List Call)
  | stake amount => do
    let token ← book.require .stakingToken
    let validator ← book.require .validator
    pure (withdrawAll token amount "bucket" ++
      [.callMethod validator "stake" [.bucket "bucket"], .deposit .deposit])
  | addStake amount => do
    let token ← book.require .stakingToken
    let badge ← book.require .stakerBadge
    let validator ← book.require .validator
    pure (withdrawAll token amount "bucket" ++ withdrawAll badge one "bucket1" ++
      [.callMethod validator "add_stake" [.bucket "bucket", .bucket "bucket1"], .deposit .deposit])
  | unstake amount => stakerCall book "unstake" [.decimal amount]
  | withdrawStake amount => stakerCall book "withdraw" [.decimal amount]
  | stopUnstake => stakerCall book "stop_unstake" []
  | register => do
    let component ← book.require .component
    pure [.callMethod component "register" [], .deposit .deposit]
  | unregister => do
    let component ← book.require .component
    let badge ← book.require .userBadge
    pure (withdrawExact badge one "nft" ++
      [.callMethod component "unregister" [.bucket "nft"], .deposit .deposit])
  | supply amount => do
    let component ← book.require .component
    let badge ← book.require .userBadge
    let token ← book.require .underlyingToken
    let tokenValue ← Value.checkedAddress token
    pure (withdrawAll token amount "xrd" ++ withdrawAll badge one "nft" ++
      [.callMethod component "supply" [.bucket "xrd", .bucket "nft", tokenValue],
       .deposit .tryOrRefund])
  | takesBack amount => do
    let component ← book.require .component
    let badge ← book.require .userBadge
    let lent ← book.require .tokenizerToken
    let token ← book.require .underlyingToken
    let tokenValue ← Value.checkedAddress token
    pure (withdrawExact lent amount "loan" ++ withdrawExact badge one "nft" ++
      [.callMethod component "takes_back" [.bucket "loan", .bucket "nft", tokenValue],
       .deposit .tryOrRefund])
  | tokenizeYield amount maturity => do
    let component ← book.require .component
    let badge ← book.require .userBadge
    let lent ← book.require .tokenizerToken
    let token ← book.require .underlyingToken
    let tokenValue ← Value.checkedAddress token
    pure (withdrawExact lent amount "bucket1" ++ withdrawExact badge one "bucket2" ++
      [.callMethod component "tokenize_yield"
        [.bucket "bucket1", .decimal maturity, .bucket "bucket2", tokenValue],
       .deposit .tryOrRefund])
  | redeemFromPt amount => principalCall book "redeem_from_pt" amount
  | swapPt amount => principalCall book "redeem" amount
  | claimYield => do
    let component ← book.require .component
    let badge ← book.require .userBadge
    let token ← book.require .underlyingToken
    let tokenValue ← Value.checkedAddress token
    pure (withdrawExact badge one "bucket1" ++
      [.callMethod component "claim_yield" [.bucket "bucket1", tokenValue], .deposit .tryOrRefund])
  | depositToFund resource amount ratios => do
    let fund ← book.require .fundComponent
    let tuples ← ratios.mapM fun (address, ratio) => do
      pure (Value.tuple [← Value.checkedAddress address, .decimal ratio])
    pure (withdrawExact resource amount "bucket" ++
      [.callMethod fund "swap_token_for_tokens" [.bucket "bucket", .array "Tuple" tuples],
       .callMethod fund "deposit_tokens_to_fund" [.entireWorktop], .deposit .deposit])
  | withdrawFromFund amount => do
    let fund ← book.require .fundComponent
    let share ← book.require .shareToken
    pure (withdrawAll share amount "bucket" ++
      [.callMethod fund "withdraw_tokens_from_fund" [.bucket "bucket"], .deposit .deposit])
  | subscribePolicy policy amount fee =>
    insuredCall book "subscribe_to_insurance_policy" "deposit_amount"
      [policyValue policy, .decimal amount] amount fee
  | investAsInsurer policy amount fee =>
    insuredCall book "invest_as_insurer" "invest_amount" [policyValue policy] amount fee
  | withdrawRewards policy => do
    let insurance ← book.require .insuranceComponent
    let badge ← book.require .insurerBadge
    pure (present badge "insurer_proof" ++
      [.callMethod insurance "rewards_withdrawal" [policyValue policy, .proof "insurer_proof"],
       .deposit .deposit])
  | reportClaim policy claim report => do
    let insurance ← book.require .insuranceComponent
    let badge ← book.require .insuredBadge
    pure (present badge "insured_proof" ++
      [.callMethod insurance "report_a_claim"
        [.proof "insured_proof", policyValue policy, .string report, .decimal claim],
       .deposit .deposit])
  | claimWithdraw policy => do
    let insurance ← book.require .insuranceComponent
    let badge ← book.require .claimBadge
    pure (present badge "claim_proof" ++
      [.callMethod insurance "claim_withdraw" [policyValue policy, .proof "claim_proof"],
       .deposit .deposit])
  | listOnMarketplace policy amount fee => do
    let insurance ← book.require .insuranceComponent
    let resource ← book.require .feeResource
    let badge ← book.require .insurerBadge
    pure [.withdraw resource fee, .withdraw badge amount, .take resource fee "service_fee",
      .take badge amount "insurer_bucket_to_list",
      .callMethod insurance "list_on_marketplace"
        [policyValue policy, .bucket "insurer_bucket_to_list", .bucket "service_fee",
         .decimal amount],
      .deposit .deposit]
  | buyOnMarketplace policy listing payment fee => do
    let insurance ← book.require .insuranceComponent
    let resource ← book.require .feeResource
    let total ← sum payment fee
    pure [.withdraw resource total, .take resource fee "service_fee",
      .take resource payment "payment_amount",
      .callMethod insurance "buy_on_marketplace"
        [policyValue policy, .bucket "payment_amount", .bucket "service_fee", .localId listing],
      .deposit .deposit]
  | registerLender => do
    let lending ← book.require .lendingComponent
    pure [.callMethod lending "register" [], .deposit .deposit]
  | lendMoney amount => do
    let lending ← book.require .lendingComponent
    let token ← book.require .lendingToken
    let badge ← book.require .lenderBadge
    pure (withdrawExact badge one "lend_nft" ++ withdrawExact token amount "loan" ++
      [.callMethod lending "lend_money" [.bucket "loan", .bucket "lend_nft"], .deposit .deposit])
  | borrow amount => do
    let lending ← book.require .lendingComponent
    let badge ← book.require .borrowerBadge
    pure (present badge "borrower_proof" ++
      [.callMethod lending "borrow" [.proof "borrower_proof", .decimal amount], .deposit .deposit])
  | repay amount => do
    let lending ← book.require .lendingComponent
    let token ← book.require .lendingToken
    let badge ← book.require .borrowerBadge
    pure (withdrawExact token amount "repayment" ++ present badge "borrower_proof" ++
      [.callMethod lending "repay" [.proof "borrower_proof", .bucket "repayment"],
       .deposit .deposit])
  | repayCredit amount => do
    let lending ← book.require .lendingComponent
    let token ← book.require .lendingToken
    let identity ← book.require .borrowerBadge
    let credit ← book.require .creditBadge
    pure (present identity "id_proof" ++ present credit "credit_proof" ++
      withdrawExact token amount "repayment" ++
      [.callMethod lending "repay" [.proof "id_proof", .proof "credit_proof", .bucket "repayment"],
       .deposit .deposit])
  | transfer recipient resource amount =>
    pure (withdrawExact resource amount "transfer" ++
      [.callMethod recipient "try_deposit_or_abort" [.bucket "transfer", Value.absent],
       .deposit .deposit])

/-- The audited manifest of an operation in the name of an account. -/
def build (account : AccountRef) (book : AddressBook) (op : Operation) :
    Except Fault Manifest := do
  buildCalls account (← op.calls book)

end Operation

end LedgerClient
