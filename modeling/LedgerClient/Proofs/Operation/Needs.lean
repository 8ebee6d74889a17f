/-
  What operations need.

  * `Operation.needs` are the entries of the address book that an operation
    reads, `Operation.addresses` all addresses it uses, `Operation.sums` the
    amounts it adds up, and `Operation.handsOver` what it hands to its first call;
  * `Ready account book op` says that nothing an operation needs is missing, and
    `Obstacle account book op` are the faults that say what is missing.
-/
import LedgerClient.Operation.Template

namespace LedgerClient.Operation

/-! ## Tables -/

/-- The entries of the address book that an operation needs. -/
def needs : Operation → List Slot
  | stake _ => [.stakingToken, .validator]
  | addStake _ => [.stakingToken, .stakerBadge, .validator]
  | unstake _ | stopUnstake | withdrawStake _ => [.stakerBadge, .validator]
  | register => [.component]
  | unregister => [.component, .userBadge]
  | supply _ | claimYield => [.component, .userBadge, .underlyingToken]
  | takesBack _ | tokenizeYield _ _ => [.component, .userBadge, .tokenizerToken, .underlyingToken]
  | redeemFromPt _ | swapPt _ => [.component, .userBadge, .principalToken, .underlyingToken]
  | depositToFund _ _ _ => [.fundComponent]
  | withdrawFromFund _ => [.fundComponent, .shareToken]
  | subscribePolicy _ _ _ | investAsInsurer _ _ _ | buyOnMarketplace _ _ _ _ =>
    [.insuranceComponent, .feeResource]
  | listOnMarketplace _ _ _ => [.insuranceComponent, .feeResource, .insurerBadge]
  | withdrawRewards _ => [.insuranceComponent, .insurerBadge]
  | reportClaim _ _ _ => [.insuranceComponent, .insuredBadge]
  | claimWithdraw _ => [.insuranceComponent, .claimBadge]
  | registerLender => [.lendingComponent]
  | lendMoney _ => [.lendingComponent, .lendingToken, .lenderBadge]
  | borrow _ => [.lendingComponent, .borrowerBadge]
  | repay _ => [.lendingComponent, .lendingToken, .borrowerBadge]
  | repayCredit _ => [.lendingComponent, .lendingToken, .borrowerBadge, .creditBadge]
  | transfer _ _ _ => []

/-- The addresses that an operation brings along itself. -/
def ownAddresses : Operation → List String
  | depositToFund resource _ ratios => resource :: ratios.map (·.1)
  | transfer recipient resource _ => [recipient, resource]
  | _ => []

/-- The addresses that an operation uses on a book. -/
def addresses (book : AddressBook) (op : Operation) : List String :=
  op.needs.filterMap book.get ++ op.ownAddresses

/-- The amounts that an operation withdraws together. -/
def sums : Operation → List (Amount × Amount)
  | subscribePolicy _ amount fee | investAsInsurer _ amount fee
  | buyOnMarketplace _ _ amount fee => [(amount, fee)]
  | _ => []

/-- What an operation hands to its first call, in the order of the arguments: each time an
    amount of a resource, which is there where its entry is. -/
def handsOver (book : AddressBook) : Operation → List (Option String × Amount)
  | stake amount => [(book.get .stakingToken, amount)]
  | addStake amount => [(book.get .stakingToken, amount), (book.get .stakerBadge, one)]
  | unstake _ | stopUnstake | withdrawStake _ => [(book.get .stakerBadge, one)]
  | unregister | claimYield => [(book.get .userBadge, one)]
  | supply amount => [(book.get .underlyingToken, amount), (book.get .userBadge, one)]
  | takesBack amount | tokenizeYield amount _ =>
    [(book.get .tokenizerToken, amount), (book.get .userBadge, one)]
  | redeemFromPt amount | swapPt amount =>
    [(book.get .principalToken, amount), (book.get .userBadge, one)]
  | depositToFund resource amount _ | transfer _ resource amount => [(some resource, amount)]
  | withdrawFromFund amount => [(book.get .shareToken, amount)]
  | subscribePolicy _ amount fee | investAsInsurer _ amount fee
  | buyOnMarketplace _ _ amount fee =>
    [(book.get .feeResource, amount), (book.get .feeResource, fee)]
  | listOnMarketplace _ amount fee =>
    [(book.get .insurerBadge, amount), (book.get .feeResource, fee)]
  | lendMoney amount => [(book.get .lendingToken, amount), (book.get .lenderBadge, one)]
  | repay amount | repayCredit amount => [(book.get .lendingToken, amount)]
  | register | withdrawRewards _ | reportClaim _ _ _ | claimWithdraw _ | registerLender
  | borrow _ => []

/-! ## Readiness -/

/-- Nothing that an operation needs is missing. -/
structure Ready (account : AccountRef) (book : AddressBook) (op : Operation) : Prop where
  slots : ∀ slot ∈ op.needs, (book.get slot).isSome
  account_shape : Address.hasShape account.address
  shapes : ∀ a ∈ op.addresses book, Address.hasShape a
  sums : ∀ s ∈ op.sums, s.1.atto + s.2.atto < twoTo 191

/-- The faults that say what is missing for an operation. -/
inductive Obstacle (account : AccountRef) (book : AddressBook) (op : Operation) : Fault → Prop
  | slot {slot : Slot} : slot ∈ op.needs → book.get slot = none →
      Obstacle account book op
        (.config (.own ("address '" ++ slot.name ++ "' is not configured")))
  | account : ¬Address.hasShape account.address →
      Obstacle account book op (.invalidAddress account.address)
  | shape {a : String} : a ∈ op.addresses book → ¬Address.hasShape a →
      Obstacle account book op (.invalidAddress a)
  | sum {a b : Amount} : (a, b) ∈ op.sums → ¬a.atto + b.atto < twoTo 191 →
      Obstacle account book op (.invalidAmount (a.text ++ " + " ++ b.text ++ " overflows"))

variable {account : AccountRef} {book : AddressBook} {op : Operation} {fault : Fault}

/-- Where something is missing, an operation is not ready. -/
theorem Obstacle.not_ready (h : Obstacle account book op fault) : ¬Ready account book op := by
  intro hr
  cases h with
  | slot hs hn => simpa [hn] using hr.slots _ hs
  | account ha => exact ha hr.account_shape
  | shape ha hs => exact hs (hr.shapes _ ha)
  | sum hs hlt => exact hlt (hr.sums _ hs)

theorem Obstacle.kind_mem (h : Obstacle account book op fault) :
    fault.kind ∈ ["Config", "InvalidAddress", "InvalidAmount"] := by
  cases h <;> simp [Fault.kind]

end LedgerClient.Operation
