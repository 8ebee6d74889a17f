/-
  Reading operations from a name and a list of words.

  * `Operation.parse` reads an operation. Words are looked at from left to
    right and the first bad one is reported; words beyond those needed are
    ignored, except where an operation takes any number of them.
-/
import LedgerClient.Address
import LedgerClient.Operation

namespace LedgerClient.Operation

open Text

/-- The name of an operation and the words given to it. -/
structure Words where
  operation : String
  words : List String

namespace Words

/-- The word at an index, which the usage calls `name`. -/
def get (w : Words) (index : Nat) (name : String) : Except Fault String :=
  match w.words[index]? with
  | some word => .ok word
  | none => .error (.invalidManifest ("'" ++ w.operation ++ "' requires <" ++ name ++ ">"))

/-- The word at an index as an amount. -/
def amount (w : Words) (index : Nat) (name : String) : Except Fault Amount := do
  Amount.parse (← w.get index name)

/-- The word at an index as an address. -/
def address (w : Words) (index : Nat) (name : String) : Except Fault String := do
  let word ← w.get index name
  Address.checkShape word
  pure word

/-- Whether a text is a local id in one of the four forms `#…#`, `<…>`, `[…]`
    and `\x7b…\x7d`. -/
def isLocalId (cs : List Char) : Bool :=
  2 < cs.length && match cs.head?, cs.getLast? with
    | some '#', some '#' | some '<', some '>' | some '[', some ']' | some '\x7b', some '\x7d' =>
      true
    | _, _ => false

/-- The word at an index as a local id. -/
def localId (w : Words) (index : Nat) (name : String) : Except Fault String := do
  let word ← w.get index name
  if isLocalId word.toList then .ok word
  else .error (.invalidManifest ("'" ++ word ++ "' is not a non-fungible local id"))

/-- The word at an index as the number of a policy, below 2¹²⁸. -/
def policy (w : Words) (index : Nat) : Except Fault Nat := do
  let word ← w.get index "policy_id"
  match bounded? (twoTo 128) (trim word) with
  | some n => .ok n
  | none => .error (.invalidManifest ("'" ++ word ++ "' is not a valid policy id"))

/-- A word as a resource and its ratio, split at the last colon. -/
def ratio (word : String) : Except Fault (String × Amount) :=
  match cutAtLast? ':' word.toList with
  | none => .error (.invalidManifest ("expected <resource>:<ratio>, got '" ++ word ++ "'"))
  | some (resource, ratio) => do
    Address.checkShape (String.ofList resource)
    pure (String.ofList resource, ← Amount.parse (String.ofList ratio))

end Words

/-- Reads an operation that takes one amount. -/
def parseAmount (w : Words) (make : Amount → Operation) : Except Fault Operation := do
  pure (make (← w.amount 0 "amount"))

/-- Reads an operation that takes a policy, an amount and a service fee. -/
def parsePolicyAmounts (w : Words) (make : Nat → Amount → Amount → Operation) :
    Except Fault Operation := do
  let policy ← w.policy 0
  let amount ← w.amount 1 "amount"
  let fee ← w.amount 2 "service_fee"
  pure (make policy amount fee)

/-- Reads the operation of the given name from words. -/
def parse (name : String) (words : List String) : Except Fault Operation :=
  let w : Words := ⟨name, words⟩
  match name with
  | "stake" => parseAmount w stake
  | "add_stake" => parseAmount w addStake
  | "unstake" => parseAmount w unstake
  | "stop_unstake" => .ok stopUnstake
  | "withdraw_stake" => parseAmount w withdrawStake
  | "register" => .ok register
  | "unregister" => .ok unregister
  | "supply" => parseAmount w supply
  | "takes_back" => parseAmount w takesBack
  | "tokenize_yield" => do
    let amount ← w.amount 0 "amount"
    let maturity ← w.amount 1 "maturity"
    pure (tokenizeYield amount maturity)
  | "redeem_from_pt" => parseAmount w redeemFromPt
  | "claim_yield" => .ok claimYield
  | "swap_pt" => parseAmount w swapPt
  | "deposit_to_fund" => do
    let resource ← w.address 0 "resource"
    let amount ← w.amount 1 "amount"
    let ratios ← (words.drop 2).mapM Words.ratio
    pure (depositToFund resource amount ratios)
  | "withdraw_from_fund" => parseAmount w withdrawFromFund
  | "subscribe_policy" => parsePolicyAmounts w subscribePolicy
  | "invest_as_insurer" => parsePolicyAmounts w investAsInsurer
  | "withdraw_rewards" => do pure (withdrawRewards (← w.policy 0))
  | "report_claim" => do
    let policy ← w.policy 0
    let claim ← w.amount 1 "claim_amount"
    let _ ← w.get 2 "report"
    pure (reportClaim policy claim (joinWith " " (words.drop 2)))
  | "claim_withdraw" => do pure (claimWithdraw (← w.policy 0))
  | "list_on_marketplace" => parsePolicyAmounts w listOnMarketplace
  | "buy_on_marketplace" => do
    let policy ← w.policy 0
    let listing ← w.localId 1 "listing_id"
    let payment ← w.amount 2 "payment"
    let fee ← w.amount 3 "service_fee"
    pure (buyOnMarketplace policy listing payment fee)
  | "register_lender" => .ok registerLender
  | "lend_money" => parseAmount w lendMoney
  | "borrow" => parseAmount w borrow
  | "repay" => parseAmount w repay
  | "repay_credit" => parseAmount w repayCredit
  | "transfer" => do
    let recipient ← w.address 0 "to"
    let resource ← w.address 1 "resource"
    let amount ← w.amount 2 "amount"
    pure (transfer recipient resource amount)
  | other => .error (.unknownOperation other)

end LedgerClient.Operation
