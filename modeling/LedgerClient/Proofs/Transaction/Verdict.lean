/-
  Whether the final verdict of a poll is the verdict of the receipt.

  * `ReceiptStatus.pendingWords` are the gateway's words for a transaction without a verdict;
  * `Receipt.isFinal_verdict`: details take a final verdict back with such a word only;
  * `awaitReceipt_ending`: no poll before the last one settles the matter, and waiting concludes
    from the last one;
  * `final_verdict_kept_unless_pending`: so the receipt for a final verdict is final, unless the
    details of the committed transaction say that it is pending.
-/
import LedgerClient.Proofs.Transaction.Polling

namespace LedgerClient

/-! ## Words -/

/-- The words for a transaction on which the verdict is still to come. -/
def ReceiptStatus.pendingWords : List String :=
  ["Pending", "CommitPendingOutcomeUnknown", "LikelyButNotCertainRejection"]

theorem ReceiptStatus.ofGateway_eq_pending_iff {word : String} :
    ofGateway word = .pending ↔ word ∈ pendingWords := by
  unfold ofGateway
  split <;> simp_all [pendingWords]

/-- Details take a final verdict back just where they say that it is pending. -/
theorem Receipt.isFinal_verdict {polled : ReceiptStatus} (h : polled.isFinal) (word : String) :
    (Receipt.verdict polled word).isFinal = false ↔ word ∈ ReceiptStatus.pendingWords := by
  rw [← ReceiptStatus.ofGateway_eq_pending_iff, Receipt.verdict]
  cases ReceiptStatus.ofGateway word with
  | unknown => simp only [h, Bool.true_eq_false, reduceCtorEq]
  | success | failure | rejected | pending => simp [ReceiptStatus.isFinal]

namespace Transaction

open Job

/-! ## Polls -/

/-- No poll before the last one settles the matter, and waiting concludes from the last one. -/
theorem awaitReceipt_ending (s : Submission) (intentHash : String)
    (replies : Nat → Except Fault TransactionStatus) (details : Except Fault CommittedDetails)
    (others : (q : Question) → q.Answer) (d : Desk) :
    let e := (awaitReceipt s intentHash).run.ending (scripted replies details others) d 0
    ∃ last rest, e.world = last + 1 ∧ (∀ i < last, settles (replies i) = false) ∧
      Concludes intentHash details (replies last) rest e.result := by
  obtain ⟨last, -, hbefore, -, hpoll⟩ := poll_ending replies details others d s.pollIntervalMs
    intentHash (s.pollAttempts - 1) 0
  simp only [Nat.zero_add] at hbefore hpoll
  rw [awaitReceipt_eq, ending_bind, hpoll]
  refine ⟨last, ?_⟩
  cases hreply : replies last with
  | error fault => exact ⟨[], rfl, hbefore, .unanswered fault⟩
  | ok answer =>
    obtain ⟨rest, result, hreceive, hconcludes⟩ :=
      receive_concludes replies details others d intentHash answer (last + 1)
    simp only [Except.map, proceed, hreceive]
    exact ⟨rest, rfl, hbefore, hconcludes⟩

/-- What is concluded from a final verdict is a receipt. Its verdict is final, unless details of
    a committed transaction say that it is pending. -/
theorem Concludes.isFinal_iff {intentHash : String} {details : Except Fault CommittedDetails}
    {answer : TransactionStatus} {rest : List Question} {result : Except Fault Receipt}
    (h : Concludes intentHash details (.ok answer) rest result)
    (hfinal : (ReceiptStatus.ofGateway answer.status).isFinal) :
    ∃ receipt, result = .ok receipt ∧ (receipt.status.isFinal = false ↔
      ReceiptStatus.ofGateway answer.status ≠ .rejected ∧
        ∃ found, details = .ok found ∧ found.status ∈ ReceiptStatus.pendingWords) := by
  cases h with
  | uncommitted _ status hstatus hs hf =>
    rw [hstatus] at hfinal ⊢
    have hrejected : status = .rejected := by
      cases status <;> simp_all [ReceiptStatus.isFinal]
    refine ⟨_, rfl, ?_⟩
    simp [Receipt.bare, hrejected, ReceiptStatus.isFinal]
  | undetailed _ status fault hstatus _ hfault =>
    rw [hstatus] at hfinal ⊢
    refine ⟨_, rfl, ?_⟩
    simp [Receipt.bare, hfinal, hfault]
  | detailed _ status found hstatus hcommitted hfound =>
    rw [hstatus] at hfinal ⊢
    have hne : status ≠ .rejected := by
      rintro rfl
      simp at hcommitted
    refine ⟨_, rfl, ?_⟩
    simp [Receipt.ofDetails, Receipt.isFinal_verdict hfinal, hne, hfound]

/-- What comes back where nobody answers and no time passes. -/
def unanswered : (q : Question) → q.Answer
  | .wait _ => ()
  | .now => 0
  | .accounts | .sign _ | .entities _ | .component _ | .nonFungible _ _ | .status _ | .details _
  | .load | .save _ | .clear | .refresh => .error .notConnected

/-- **A final verdict is kept, unless the details say that it is pending.** Where one of the polls
    that were made tells a final verdict, there is a receipt. Its verdict is final as well, except
    where the transaction is committed and its details come with a word for pending. -/
theorem final_verdict_kept_unless_pending (s : Submission) (intentHash : String)
    (replies : Nat → Except Fault TransactionStatus) (details : Except Fault CommittedDetails)
    (others : (q : Question) → q.Answer) (d : Desk) :
    let e := (awaitReceipt s intentHash).run.ending (scripted replies details others) d 0
    ∀ index answer, index < e.world → replies index = .ok answer →
      (ReceiptStatus.ofGateway answer.status).isFinal →
      ∃ receipt, e.result = .ok receipt ∧ (receipt.status.isFinal = false ↔
        ReceiptStatus.ofGateway answer.status ≠ .rejected ∧
          ∃ found, details = .ok found ∧ found.status ∈ ReceiptStatus.pendingWords) := by
  intro e index answer hmade hreply hfinal
  obtain ⟨last, rest, hworld, hbefore, hconcludes⟩ :=
    awaitReceipt_ending s intentHash replies details others d
  have hsettles : settles (replies index) = true := by rw [hreply, settles, hfinal]
  obtain rfl : index = last := by
    have hle : index ≤ last := Nat.le_of_lt_succ (Nat.lt_of_lt_of_eq hmade hworld)
    refine Nat.le_antisymm hle (Nat.le_of_not_lt fun hlt => ?_)
    rw [hbefore index hlt] at hsettles
    cases hsettles
  rw [hreply] at hconcludes
  exact hconcludes.isFinal_iff hfinal

/-- Also for a failure that the second poll tells, with details that tell a rejection as likely. -/
theorem final_verdict_kept_unless_pending_likely_rejection :
    let answer : TransactionStatus := ⟨"Failed", none, none⟩
    let replies : Nat → Except Fault TransactionStatus := fun i =>
      if i = 1 then .ok answer else .ok ⟨"Pending", none, none⟩
    let found : CommittedDetails := ⟨"LikelyButNotCertainRejection", none, none, none, none⟩
    let e := (awaitReceipt ⟨3, 10, 0, 30⟩ "txid").run.ending
      (scripted replies (.ok found) unanswered) .fresh 0
    1 < e.world ∧ replies 1 = .ok answer ∧ (ReceiptStatus.ofGateway answer.status).isFinal ∧
      ∃ receipt, e.result = .ok receipt ∧ receipt.status.isFinal = false := by
  intro answer replies found e
  have hmade : 1 < e.world := by decide
  obtain ⟨receipt, hreceipt, hiff⟩ := final_verdict_kept_unless_pending ⟨3, 10, 0, 30⟩ "txid"
    replies (.ok found) unanswered .fresh 1 answer hmade rfl rfl
  exact ⟨hmade, rfl, rfl, receipt, hreceipt, hiff.2 ⟨nofun, found, rfl, by decide⟩⟩

/-- So a transaction that a poll tells as committed may be pending by its receipt. -/
theorem committed_transaction_told_pending :
    let replies : Nat → Except Fault TransactionStatus := fun _ =>
      .ok ⟨"CommittedSuccess", none, none⟩
    let found : CommittedDetails := ⟨"Pending", none, none, none, none⟩
    let e := (awaitReceipt ⟨1, 10, 0, 30⟩ "txid").run.ending
      (scripted replies (.ok found) unanswered) .fresh 0
    0 < e.world ∧ (ReceiptStatus.ofGateway "CommittedSuccess").isFinal ∧
      e.result = .ok (.bare "txid" .pending) ∧ ReceiptStatus.pending.isFinal = false :=
  ⟨by decide, rfl, rfl, rfl⟩

end Transaction

end LedgerClient
