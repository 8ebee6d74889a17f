/-
  The calls of operations.

  * `Expansion.Fits e book op` says that the expansion `e` uses the addresses of
    the operation, adds up its amounts, and hands over what it states;
  * `yields_require`, `yields_checkedAddress` and `yields_sum`: each step on the
    way to the calls succeeds, or it meets an obstacle;
  * `calls_yields`: the calls of an operation are an expansion that fits it.
-/
import LedgerClient.Proofs.Amount.Sum
import LedgerClient.Proofs.Operation.Expansion
import LedgerClient.Proofs.Operation.Needs

namespace LedgerClient.Operation

open Manifest

/-- The expansion does what the operation states. Where both are written out this
    is routine, so that the fields have proofs by default. -/
structure Expansion.Fits (e : Expansion) (book : AddressBook) (op : Operation) : Prop where
  slots : ∀ slot ∈ op.needs, (book.get slot).isSome := by simp [needs, *]
  sums : ∀ s ∈ op.sums, s.1.atto + s.2.atto < twoTo 191 := by simp [Operation.sums, *]
  addresses : ∀ a, a ∈ e.addresses ↔ a ∈ op.addresses book := by
    simp [Expansion.addresses, Piece.addresses, Value.addressesOf, Value.leavesOf,
      Value.leaves, Value.address?, policyValue, Value.absent, Operation.addresses, needs, ownAddresses, *] <;> grind
  handed : e.handed.map (fun p => (some p.resource, p.amount)) = op.handsOver book := by
    simp [portions, Piece.portions, handsOver, *]

/-! ## Obstacles on the way -/

section

variable {account : AccountRef} {book : AddressBook} {op : Operation} {β : Type} {Q : β → Prop}

theorem yields_require {slot : Slot} {f : String → Except Fault β}
    (hf : ∀ a, book.get slot = some a → Yields (f a) (Obstacle account book op) Q)
    (hs : slot ∈ op.needs := by simp [needs]) :
    Yields (book.require slot >>= f) (Obstacle account book op) Q := by
  rw [AddressBook.require]
  cases ha : book.get slot with
  | none => exact .slot hs ha
  | some a => exact hf a ha

theorem yields_checkedAddress {a : String} (ha : a ∈ op.addresses book) :
    Yields (Value.checkedAddress a) (Obstacle account book op) fun v => v = .address a := by
  rw [Value.checkedAddress, Address.checkShape]
  by_cases hs : Address.hasShape a
  · rw [if_pos hs]
    exact rfl
  · rw [if_neg hs]
    exact .shape ha hs

/-- The address of an entry that is needed, as an argument. -/
theorem yields_slotAddress {slot : Slot} {a : String} {f : Value → Except Fault β}
    (ha : book.get slot = some a)
    (hf : Yields (f (.address a)) (Obstacle account book op) Q)
    (hs : slot ∈ op.needs := by simp [needs]) :
    Yields (Value.checkedAddress a >>= f) (Obstacle account book op) Q := by
  refine (yields_checkedAddress (List.mem_append_left _ ?_)).bind fun v hv => hv ▸ hf
  exact List.mem_filterMap.2 ⟨slot, hs, ha⟩

theorem yields_sum {a b : Amount} {f : Amount → Except Fault β}
    (hf : ∀ total : Amount, total.atto = a.atto + b.atto → a.atto + b.atto < twoTo 191 →
      Yields (f total) (Obstacle account book op) Q)
    (hs : (a, b) ∈ op.sums := by simp [Operation.sums]) :
    Yields (sum a b >>= f) (Obstacle account book op) Q := by
  rw [sum]
  by_cases hlt : a.atto + b.atto < twoTo 191
  · rw [Amount.checkedAdd_eq_some hlt]
    exact hf ⟨a.atto + b.atto, hlt⟩ rfl hlt
  · rw [Amount.checkedAdd_eq_none hlt]
    exact .sum hs hlt

end

/-! ## Ratios -/

/-- A resource and its ratio as an argument. -/
def ratioValue (ratio : String × Amount) : Value :=
  .tuple [.address ratio.1, .decimal ratio.2]

theorem yields_ratios {account : AccountRef} {book : AddressBook} {op : Operation}
    (ratios : List (String × Amount)) (h : ∀ ratio ∈ ratios, ratio.1 ∈ op.addresses book) :
    Yields (ratios.mapM fun (address, ratio) => do
        pure (Value.tuple [← Value.checkedAddress address, .decimal ratio]))
      (Obstacle account book op) fun vs => vs = ratios.map ratioValue := by
  refine Yields.mapM ratios fun ratio hr => (yields_checkedAddress (h ratio hr)).bind ?_
  rintro v rfl
  exact rfl

/-- What is picked from ratios, where nothing is picked from their numbers. -/
theorem filterMap_ratios {β : Type} {f : Value → Option β} (hf : ∀ a, f (.decimal a) = none) :
    ∀ ratios : List (String × Amount), (Value.leavesOf (ratios.map ratioValue)).filterMap f =
      ratios.filterMap fun ratio => f (.address ratio.1)
  | [] => rfl
  | ratio :: ratios => by
    rw [List.map_cons, Value.leavesOf, List.filterMap_append, filterMap_ratios hf ratios]
    cases ha : f (.address ratio.1) <;> simp [ratioValue, Value.leaves, Value.leavesOf, hf, ha]

/-- The arguments with which a bucket is swapped for resources in given ratios. -/
def swapArgs (bucket : String) (ratios : List (String × Amount)) : List Value :=
  [.bucket bucket, .array "Tuple" (ratios.map ratioValue)]

theorem filterMap_swapArgs {β : Type} {f : Value → Option β} (hf : ∀ a, f (.decimal a) = none)
    (bucket : String) (ratios : List (String × Amount)) :
    (Value.leavesOf (swapArgs bucket ratios)).filterMap f =
      (f (.bucket bucket)).toList ++ ratios.filterMap fun ratio => f (.address ratio.1) := by
  rw [← filterMap_ratios hf]
  cases hb : f (.bucket bucket) <;> simp [swapArgs, Value.leavesOf, Value.leaves, hb]

theorem bucketsOf_swapArgs (bucket : String) (ratios : List (String × Amount)) :
    Value.bucketsOf (swapArgs bucket ratios) = [bucket] := by
  rw [Value.bucketsOf_eq, filterMap_swapArgs (by simp [Value.bucket?])]
  simp [Value.bucket?]

theorem proofsOf_swapArgs (bucket : String) (ratios : List (String × Amount)) :
    Value.proofsOf (swapArgs bucket ratios) = [] := by
  rw [Value.proofsOf_eq, filterMap_swapArgs (by simp [Value.proof?])]
  simp [Value.proof?]

theorem addressesOf_swapArgs (bucket : String) (ratios : List (String × Amount)) :
    Value.addressesOf (swapArgs bucket ratios) = ratios.map (·.1) := by
  rw [Value.addressesOf, filterMap_swapArgs (by simp [Value.address?])]
  simp [Value.address?]

/-! ## The calls of operations -/

/-- **The calls of an operation are an expansion that fits it**, where no obstacle
    is in the way. -/
theorem calls_yields (account : AccountRef) (book : AddressBook) (op : Operation) :
    Yields (op.calls book) (Obstacle account book op) fun cs =>
      ∃ e : Expansion, e.Fits book op ∧ e.calls = cs := by
  -- the entries are looked up in the order of `needs`; where all of them are there, the
  -- calls are those of an expansion as they stand
  cases op with
  | stake amount =>
    refine yields_require fun token ht => yields_require fun validator hv => ?_
    exact ⟨{ pieces := [.all ⟨"bucket", token, amount⟩],
             target := validator, method := "stake", args := [.bucket "bucket"] }, {}, rfl⟩
  | addStake amount =>
    refine yields_require fun token ht => yields_require fun badge hb =>
      yields_require fun validator hv => ?_
    exact ⟨{ pieces := [.all ⟨"bucket", token, amount⟩, .all ⟨"bucket1", badge, one⟩],
             target := validator, method := "add_stake",
             args := [.bucket "bucket", .bucket "bucket1"] }, {}, rfl⟩
  | unstake amount | withdrawStake amount | stopUnstake =>
    refine yields_require fun badge hb => yields_require fun validator hv => ?_
    exact ⟨{ pieces := [.all ⟨"bucket1", badge, one⟩],
             target := validator, method := _, args := _ ++ [.bucket "bucket1"] }, {}, rfl⟩
  | register =>
    refine yields_require fun component hc => ?_
    exact ⟨{ pieces := [], target := component, method := "register", args := [] }, {}, rfl⟩
  | unregister =>
    refine yields_require fun component hc => yields_require fun badge hb => ?_
    exact ⟨{ pieces := [.exact ⟨"nft", badge, one⟩],
             target := component, method := "unregister", args := [.bucket "nft"] }, {}, rfl⟩
  | supply amount =>
    refine yields_require fun component hc => yields_require fun badge hb =>
      yields_require fun token ht => yields_slotAddress ht ?_
    exact ⟨{ pieces := [.all ⟨"xrd", token, amount⟩, .all ⟨"nft", badge, one⟩],
             target := component, method := "supply",
             args := [.bucket "xrd", .bucket "nft", .address token],
             mode := .tryOrRefund }, {}, rfl⟩
  | takesBack amount =>
    refine yields_require fun component hc => yields_require fun badge hb =>
      yields_require fun lent hl => yields_require fun token ht => yields_slotAddress ht ?_
    exact ⟨{ pieces := [.exact ⟨"loan", lent, amount⟩, .exact ⟨"nft", badge, one⟩],
             target := component, method := "takes_back",
             args := [.bucket "loan", .bucket "nft", .address token],
             mode := .tryOrRefund }, {}, rfl⟩
  | tokenizeYield amount maturity =>
    refine yields_require fun component hc => yields_require fun badge hb =>
      yields_require fun lent hl => yields_require fun token ht => yields_slotAddress ht ?_
    exact ⟨{ pieces := [.exact ⟨"bucket1", lent, amount⟩, .exact ⟨"bucket2", badge, one⟩],
             target := component, method := "tokenize_yield",
             args := [.bucket "bucket1", .decimal maturity, .bucket "bucket2", .address token],
             mode := .tryOrRefund }, {}, rfl⟩
  | redeemFromPt amount | swapPt amount =>
    refine yields_require fun component hc => yields_require fun badge hb =>
      yields_require fun principal hp => yields_require fun token ht => yields_slotAddress ht ?_
    exact ⟨{ pieces := [.exact ⟨"bucket1", principal, amount⟩, .exact ⟨"bucket2", badge, one⟩],
             target := component, method := _,
             args := [.bucket "bucket1", .bucket "bucket2", .address token],
             mode := .tryOrRefund }, {}, rfl⟩
  | claimYield =>
    refine yields_require fun component hc => yields_require fun badge hb =>
      yields_require fun token ht => yields_slotAddress ht ?_
    exact ⟨{ pieces := [.exact ⟨"bucket1", badge, one⟩],
             target := component, method := "claim_yield",
             args := [.bucket "bucket1", .address token], mode := .tryOrRefund }, {}, rfl⟩
  | depositToFund resource amount ratios =>
    refine yields_require fun fund hf => (yields_ratios ratios ?_).bind ?_
    · intro ratio hr
      exact List.mem_append_right _ (List.mem_cons_of_mem _ (List.mem_map_of_mem hr))
    · rintro tuples rfl
      exact ⟨{ pieces := [.exact ⟨"bucket", resource, amount⟩],
               target := fund, method := "swap_token_for_tokens",
               args := swapArgs "bucket" ratios, further := ["deposit_tokens_to_fund"],
               buckets_args := bucketsOf_swapArgs _ _, proofs_args := proofsOf_swapArgs _ _ },
        { addresses := by
            simp [Expansion.addresses, Piece.addresses, addressesOf_swapArgs, Operation.addresses,
              needs, ownAddresses, hf]
            grind }, rfl⟩
  | withdrawFromFund amount =>
    refine yields_require fun fund hf => yields_require fun share hs => ?_
    exact ⟨{ pieces := [.all ⟨"bucket", share, amount⟩],
             target := fund, method := "withdraw_tokens_from_fund",
             args := [.bucket "bucket"] }, {}, rfl⟩
  | subscribePolicy policy amount fee =>
    refine yields_require fun insurance hi => yields_require fun resource hr =>
      yields_sum fun total ht hlt => ?_
    exact ⟨{ pieces := [.shared resource "service_fee" "deposit_amount" fee amount total
               (ht.trans (Nat.add_comm _ _))],
             target := insurance, method := "subscribe_to_insurance_policy",
             args := [policyValue policy, .decimal amount, .bucket "deposit_amount",
               .bucket "service_fee"],
             handed := [⟨"deposit_amount", resource, amount⟩, ⟨"service_fee", resource, fee⟩] },
      {}, rfl⟩
  | investAsInsurer policy amount fee =>
    refine yields_require fun insurance hi => yields_require fun resource hr =>
      yields_sum fun total ht hlt => ?_
    exact ⟨{ pieces := [.shared resource "service_fee" "invest_amount" fee amount total
               (ht.trans (Nat.add_comm _ _))],
             target := insurance, method := "invest_as_insurer",
             args := [policyValue policy, .bucket "invest_amount", .bucket "service_fee"],
             handed := [⟨"invest_amount", resource, amount⟩, ⟨"service_fee", resource, fee⟩] },
      {}, rfl⟩
  | withdrawRewards policy =>
    refine yields_require fun insurance hi => yields_require fun badge hb => ?_
    exact ⟨{ pieces := [.proven badge "insurer_proof"],
             target := insurance, method := "rewards_withdrawal",
             args := [policyValue policy, .proof "insurer_proof"] }, {}, rfl⟩
  | reportClaim policy claim report =>
    refine yields_require fun insurance hi => yields_require fun badge hb => ?_
    exact ⟨{ pieces := [.proven badge "insured_proof"],
             target := insurance, method := "report_a_claim",
             args := [.proof "insured_proof", policyValue policy, .string report,
               .decimal claim] }, {}, rfl⟩
  | claimWithdraw policy =>
    refine yields_require fun insurance hi => yields_require fun badge hb => ?_
    exact ⟨{ pieces := [.proven badge "claim_proof"],
             target := insurance, method := "claim_withdraw",
             args := [policyValue policy, .proof "claim_proof"] }, {}, rfl⟩
  | listOnMarketplace policy amount fee =>
    refine yields_require fun insurance hi => yields_require fun resource hr =>
      yields_require fun badge hb => ?_
    exact ⟨{ pieces := [.crossed ⟨"service_fee", resource, fee⟩
               ⟨"insurer_bucket_to_list", badge, amount⟩],
             target := insurance, method := "list_on_marketplace",
             args := [policyValue policy, .bucket "insurer_bucket_to_list", .bucket "service_fee",
               .decimal amount],
             handed := [⟨"insurer_bucket_to_list", badge, amount⟩,
               ⟨"service_fee", resource, fee⟩] },
      {}, rfl⟩
  | buyOnMarketplace policy listing payment fee =>
    refine yields_require fun insurance hi => yields_require fun resource hr =>
      yields_sum fun total ht hlt => ?_
    exact ⟨{ pieces := [.shared resource "service_fee" "payment_amount" fee payment total
               (ht.trans (Nat.add_comm _ _))],
             target := insurance, method := "buy_on_marketplace",
             args := [policyValue policy, .bucket "payment_amount", .bucket "service_fee",
               .localId listing],
             handed := [⟨"payment_amount", resource, payment⟩, ⟨"service_fee", resource, fee⟩] },
      {}, rfl⟩
  | registerLender =>
    refine yields_require fun lending hl => ?_
    exact ⟨{ pieces := [], target := lending, method := "register", args := [] }, {}, rfl⟩
  | lendMoney amount =>
    refine yields_require fun lending hl => yields_require fun token ht =>
      yields_require fun badge hb => ?_
    exact ⟨{ pieces := [.exact ⟨"lend_nft", badge, one⟩, .exact ⟨"loan", token, amount⟩],
             target := lending, method := "lend_money",
             args := [.bucket "loan", .bucket "lend_nft"],
             handed := [⟨"loan", token, amount⟩, ⟨"lend_nft", badge, one⟩] }, {}, rfl⟩
  | borrow amount =>
    refine yields_require fun lending hl => yields_require fun badge hb => ?_
    exact ⟨{ pieces := [.proven badge "borrower_proof"],
             target := lending, method := "borrow",
             args := [.proof "borrower_proof", .decimal amount] }, {}, rfl⟩
  | repay amount =>
    refine yields_require fun lending hl => yields_require fun token ht =>
      yields_require fun badge hb => ?_
    exact ⟨{ pieces := [.exact ⟨"repayment", token, amount⟩, .proven badge "borrower_proof"],
             target := lending, method := "repay",
             args := [.proof "borrower_proof", .bucket "repayment"] }, {}, rfl⟩
  | repayCredit amount =>
    refine yields_require fun lending hl => yields_require fun token ht =>
      yields_require fun identity hi => yields_require fun credit hc => ?_
    exact ⟨{ pieces := [.proven identity "id_proof", .proven credit "credit_proof",
               .exact ⟨"repayment", token, amount⟩],
             target := lending, method := "repay",
             args := [.proof "id_proof", .proof "credit_proof", .bucket "repayment"] }, {}, rfl⟩
  | transfer recipient resource amount =>
    exact ⟨{ pieces := [.exact ⟨"transfer", resource, amount⟩],
             target := recipient, method := "try_deposit_or_abort",
             args := [.bucket "transfer", .absent] }, {}, rfl⟩

end LedgerClient.Operation
