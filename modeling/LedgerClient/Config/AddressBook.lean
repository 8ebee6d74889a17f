/-
  The address book: the component and resource addresses that the operations
  need, each of them optional.

  * `Slot` names an entry; `Slot.name` is its name in documents, and
    `Slot.envVariable` the environment variable that sets it;
  * `AddressBook.get` and `AddressBook.set` read and write an entry.
-/

namespace LedgerClient

/-- The entries of the address book. -/
inductive Slot where
  | component
  | adminBadge
  | stakingToken
  | stakerBadge
  | validator
  | userBadge
  | tokenizerToken
  | principalToken
  | underlyingToken
  | fundComponent
  | shareToken
  | insuranceComponent
  | insurerBadge
  | insuredBadge
  | claimBadge
  | feeResource
  | lendingComponent
  /-- the currency lent, borrowed and repaid -/
  | lendingToken
  | lenderBadge
  /-- the identity of a borrower, presented as a proof -/
  | borrowerBadge
  | creditBadge
deriving DecidableEq, Repr

namespace Slot

/-- All entries, in the order of the address book. -/
def all : List Slot :=
  [component, adminBadge, stakingToken, stakerBadge, validator, userBadge, tokenizerToken,
   principalToken, underlyingToken, fundComponent, shareToken, insuranceComponent, insurerBadge,
   insuredBadge, claimBadge, feeResource, lendingComponent, lendingToken, lenderBadge,
   borrowerBadge, creditBadge]

/-- The name of an entry in documents. -/
def name : Slot → String
  | component => "component"
  | adminBadge => "admin_badge"
  | stakingToken => "staking_token"
  | stakerBadge => "staker_badge"
  | validator => "validator"
  | userBadge => "user_badge"
  | tokenizerToken => "tokenizer_token"
  | principalToken => "principal_token"
  | underlyingToken => "underlying_token"
  | fundComponent => "fund_component"
  | shareToken => "share_token"
  | insuranceComponent => "insurance_component"
  | insurerBadge => "insurer_badge"
  | insuredBadge => "insured_badge"
  | claimBadge => "claim_badge"
  | feeResource => "fee_resource"
  | lendingComponent => "lending_component"
  | lendingToken => "lending_token"
  | lenderBadge => "lender_badge"
  | borrowerBadge => "borrower_badge"
  | creditBadge => "credit_badge"

/-- The environment variable that sets an entry. -/
def envVariable : Slot → String
  | component => "DAPP_COMPONENT_ADDRESS"
  | adminBadge => "DAPP_ADMIN_BADGE"
  | stakingToken => "DAPP_STAKING_TOKEN"
  | stakerBadge => "DAPP_STAKER_BADGE"
  | validator => "DAPP_VALIDATOR_ADDRESS"
  | userBadge => "DAPP_USER_BADGE"
  | tokenizerToken => "DAPP_TOKENIZER_TOKEN"
  | principalToken => "DAPP_PT_RESOURCE_ADDRESS"
  | underlyingToken => "DAPP_UNDERLYING_TOKEN"
  | fundComponent => "DAPP_FUND_COMPONENT"
  | shareToken => "DAPP_SHARE_TOKEN"
  | insuranceComponent => "DAPP_INSURANCE_COMPONENT"
  | insurerBadge => "DAPP_INSURER_BADGE"
  | insuredBadge => "DAPP_INSURED_BADGE"
  | claimBadge => "DAPP_CLAIM_BADGE"
  | feeResource => "DAPP_FEE_RESOURCE"
  | lendingComponent => "DAPP_LENDING_COMPONENT"
  | lendingToken => "DAPP_LENDING_TOKEN"
  | lenderBadge => "DAPP_LENDER_BADGE"
  | borrowerBadge => "DAPP_BORROWER_BADGE"
  | creditBadge => "DAPP_CREDIT_BADGE"

end Slot

/-- The addresses of an application, by entry. -/
structure AddressBook where
  get : Slot → Option String

namespace AddressBook

/-- The book without entries. -/
def empty : AddressBook := ⟨fun _ => none⟩

/-- The book with one entry replaced. -/
def set (book : AddressBook) (slot : Slot) (value : Option String) : AddressBook :=
  ⟨fun s => if s = slot then value else book.get s⟩

/-- The entries that have an address, with their names. -/
def entries (book : AddressBook) : List (String × String) :=
  Slot.all.filterMap fun slot => (book.get slot).map (slot.name, ·)

end AddressBook

end LedgerClient
