/-
  Operations: the named actions a user can take, with typed arguments.

  * `Operation` has one constructor per action; `Operation.name` is its name;
  * `Operation.usage` lists the names with the arguments they take, and
    `Operation.args` are the arguments of an operation as text in that order;
  * `Operation.toJson` writes an operation with its arguments by name.
-/
import LedgerClient.Amount
import LedgerClient.Json.Record
import LedgerClient.Text.Search

namespace LedgerClient

open Text

/-- An action of a user. -/
inductive Operation where
  -- staking with a validator
  | stake (amount : Amount)
  | addStake (amount : Amount)
  | unstake (amount : Amount)
  | stopUnstake
  | withdrawStake (amount : Amount)
  -- splitting a token into principal and yield
  | register
  | unregister
  | supply (amount : Amount)
  | takesBack (amount : Amount)
  | tokenizeYield (amount maturity : Amount)
  | redeemFromPt (amount : Amount)
  | claimYield
  | swapPt (amount : Amount)
  -- funds
  | depositToFund (resource : String) (amount : Amount) (ratios : List (String × Amount))
  | withdrawFromFund (amount : Amount)
  -- insurance
  | subscribePolicy (policy : Nat) (amount serviceFee : Amount)
  | investAsInsurer (policy : Nat) (amount serviceFee : Amount)
  | withdrawRewards (policy : Nat)
  | reportClaim (policy : Nat) (claim : Amount) (report : String)
  | claimWithdraw (policy : Nat)
  | listOnMarketplace (policy : Nat) (amount serviceFee : Amount)
  | buyOnMarketplace (policy : Nat) (listing : String) (payment serviceFee : Amount)
  -- lending
  | registerLender
  | lendMoney (amount : Amount)
  | borrow (amount : Amount)
  | repay (amount : Amount)
  | repayCredit (amount : Amount)
  -- plain transfers
  | transfer (recipient resource : String) (amount : Amount)
deriving DecidableEq

namespace Operation

/-- The name of an operation. -/
def name : Operation → String
  | stake _ => "stake"
  | addStake _ => "add_stake"
  | unstake _ => "unstake"
  | stopUnstake => "stop_unstake"
  | withdrawStake _ => "withdraw_stake"
  | register => "register"
  | unregister => "unregister"
  | supply _ => "supply"
  | takesBack _ => "takes_back"
  | tokenizeYield _ _ => "tokenize_yield"
  | redeemFromPt _ => "redeem_from_pt"
  | claimYield => "claim_yield"
  | swapPt _ => "swap_pt"
  | depositToFund _ _ _ => "deposit_to_fund"
  | withdrawFromFund _ => "withdraw_from_fund"
  | subscribePolicy _ _ _ => "subscribe_policy"
  | investAsInsurer _ _ _ => "invest_as_insurer"
  | withdrawRewards _ => "withdraw_rewards"
  | reportClaim _ _ _ => "report_claim"
  | claimWithdraw _ => "claim_withdraw"
  | listOnMarketplace _ _ _ => "list_on_marketplace"
  | buyOnMarketplace _ _ _ _ => "buy_on_marketplace"
  | registerLender => "register_lender"
  | lendMoney _ => "lend_money"
  | borrow _ => "borrow"
  | repay _ => "repay"
  | repayCredit _ => "repay_credit"
  | transfer _ _ _ => "transfer"

/-- The names of the operations with the arguments they take. -/
def usage : List (String × String) :=
  [("stake", "<amount>"),
   ("add_stake", "<amount>"),
   ("unstake", "<amount>"),
   ("stop_unstake", ""),
   ("withdraw_stake", "<amount>"),
   ("register", ""),
   ("unregister", ""),
   ("supply", "<amount>"),
   ("takes_back", "<amount>"),
   ("tokenize_yield", "<amount> <maturity>"),
   ("redeem_from_pt", "<amount>"),
   ("claim_yield", ""),
   ("swap_pt", "<amount>"),
   ("deposit_to_fund", "<resource> <amount> [<resource>:<ratio>...]"),
   ("withdraw_from_fund", "<amount>"),
   ("subscribe_policy", "<policy_id> <amount> <service_fee>"),
   ("invest_as_insurer", "<policy_id> <amount> <service_fee>"),
   ("withdraw_rewards", "<policy_id>"),
   ("report_claim", "<policy_id> <claim_amount> <report...>"),
   ("claim_withdraw", "<policy_id>"),
   ("list_on_marketplace", "<policy_id> <amount> <service_fee>"),
   ("buy_on_marketplace", "<policy_id> <listing_id> <payment> <service_fee>"),
   ("register_lender", ""),
   ("lend_money", "<amount>"),
   ("borrow", "<amount>"),
   ("repay", "<amount>"),
   ("repay_credit", "<amount>"),
   ("transfer", "<to> <resource> <amount>")]

/-- The text of a resource with its ratio. -/
def ratioText (ratio : String × Amount) : String :=
  ratio.1 ++ ":" ++ ratio.2.text

/-- The arguments of an operation as text, in the order of `usage`. -/
def args : Operation → List String
  | stopUnstake | register | unregister | claimYield | registerLender => []
  | stake a | addStake a | unstake a | withdrawStake a | supply a | takesBack a | redeemFromPt a
  | swapPt a | withdrawFromFund a | lendMoney a | borrow a | repay a | repayCredit a => [a.text]
  | tokenizeYield amount maturity => [amount.text, maturity.text]
  | depositToFund resource amount ratios => resource :: amount.text :: ratios.map ratioText
  | subscribePolicy policy amount fee | investAsInsurer policy amount fee
  | listOnMarketplace policy amount fee => [numeral policy, amount.text, fee.text]
  | withdrawRewards policy | claimWithdraw policy => [numeral policy]
  | reportClaim policy claim report => [numeral policy, claim.text, report]
  | buyOnMarketplace policy listing payment fee =>
    [numeral policy, listing, payment.text, fee.text]
  | transfer recipient resource amount => [recipient, resource, amount.text]

/-- The arguments of an operation by name. -/
def members : Operation → List (String × Json)
  | stopUnstake | register | unregister | claimYield | registerLender => []
  | stake a | addStake a | unstake a | withdrawStake a | supply a | takesBack a | redeemFromPt a
  | swapPt a | withdrawFromFund a | lendMoney a | borrow a | repay a | repayCredit a =>
    [("amount", .str a.text)]
  | tokenizeYield amount maturity =>
    [("amount", .str amount.text), ("maturity", .str maturity.text)]
  | depositToFund resource amount ratios =>
    [("resource", .str resource), ("amount", .str amount.text),
     ("ratios", .arr (ratios.map fun (resource, ratio) => .strings [resource, ratio.text]))]
  | subscribePolicy policy amount fee | investAsInsurer policy amount fee
  | listOnMarketplace policy amount fee =>
    [("policy_id", .str (numeral policy)), ("amount", .str amount.text),
     ("service_fee", .str fee.text)]
  | withdrawRewards policy | claimWithdraw policy => [("policy_id", .str (numeral policy))]
  | reportClaim policy claim report =>
    [("policy_id", .str (numeral policy)), ("claim_amount", .str claim.text),
     ("report", .str report)]
  | buyOnMarketplace policy listing payment fee =>
    [("policy_id", .str (numeral policy)), ("listing_id", .str listing),
     ("payment", .str payment.text), ("service_fee", .str fee.text)]
  | transfer recipient resource amount =>
    [("to", .str recipient), ("resource", .str resource), ("amount", .str amount.text)]

/-- Writes an operation. -/
def toJson (op : Operation) : Json :=
  .obj (("name", .str op.name) :: op.members)

end Operation

end LedgerClient
