/-
  Waiting for the verdict on a transaction.

  * `scripted` is an outside that answers the polls one after the other from a sequence;
  * `LastPoll` says at which of the answers waiting ends: at the first one that settles the
    matter, or where the attempts are used up;
  * `poll_ending`: this is the answer that polling comes to, with a pause between two polls;
  * `await_tells_verdict`: what is asked on the way to a receipt, and what the receipt says.
-/
import LedgerClient.Proofs.Flow.Parts

namespace LedgerClient.Transaction

open Job

/-! ## Answers to polls -/

variable (replies : Nat → Except Fault TransactionStatus) (details : Except Fault CommittedDetails)
  (others : (q : Question) → q.Answer)

/-- An outside that answers the polls from a sequence, the question for details as given, and
    all other questions somehow. Its state is the number of polls so far. -/
def scripted : (q : Question) → StateM Nat q.Answer
  | .status _ => fun polls => (replies polls, polls + 1)
  | .details _ => pure details
  | q => pure (others q)

/-- Whether there is nothing to wait for after an answer: it is the last word, or a fault. -/
def settles : Except Fault TransactionStatus → Bool
  | .ok answer => (ReceiptStatus.ofGateway answer.status).isFinal
  | .error _ => true

/-- The poll of the given index is the last one: the first that settles the matter, or the last
    one within the limit, which is at least one. -/
structure LastPoll (limit index : Nat) : Prop where
  within : index < max limit 1
  unsettled_before : ∀ i < index, settles (replies i) = false
  stops : index + 1 = max limit 1 ∨ settles (replies index) = true

variable {replies} in
theorem LastPoll.le {limit index other : Nat} (h : LastPoll replies limit index)
    (ho : LastPoll replies limit other) : index ≤ other := by
  refine Nat.le_of_not_lt fun hlt => ?_
  have hunsettled := h.unsettled_before other hlt
  obtain hlimit | hsettled := ho.stops
  · have hwithin := h.within
    omega
  · simp [hunsettled] at hsettled

/-- This many polls, with a pause between each two. -/
def polls (intervalMs : Nat) (intentHash : String) (count : Nat) : List Question :=
  (List.replicate count (.status intentHash)).intersperse (.wait intervalMs)

/-! ## Polling -/

theorem poll_zero_eq (intervalMs : Nat) (intentHash : String) :
    (poll intervalMs intentHash 0).run =
      .ask (.status intentHash) fun reply => .done (reply.map Polled.ofAnswer) := by
  rw [poll, run_bind_eq]
  show Job.ask _ _ = _
  congr 1
  funext reply
  cases reply <;> rfl

theorem poll_succ_eq (intervalMs : Nat) (intentHash : String) (more : Nat) :
    (poll intervalMs intentHash (more + 1)).run =
      .ask (.status intentHash) fun reply =>
        if settles reply then .done (reply.map Polled.ofAnswer)
        else .ask (.wait intervalMs) fun _ => (poll intervalMs intentHash more).run := by
  rw [poll, run_bind_eq]
  show Job.ask _ _ = _
  congr 1
  funext reply
  cases reply with
  | error fault => rfl
  | ok answer =>
    have hfinal : (Polled.ofAnswer answer).status.isFinal = settles (.ok answer) := rfl
    simp only [Job.bind, proceed, hfinal]
    cases settles (.ok answer) <;> rfl

variable (d : Desk)

/-- **Polling comes to the last poll.** The world counts the polls before it. -/
theorem poll_ending (intervalMs : Nat) (intentHash : String) (more count : Nat) :
    ∃ k ≤ more, (∀ i < k, settles (replies (count + i)) = false) ∧
      (k = more ∨ settles (replies (count + k)) = true) ∧
      (poll intervalMs intentHash more).run.ending (scripted replies details others) d count =
        ⟨(replies (count + k)).map Polled.ofAnswer, d, count + k + 1,
          polls intervalMs intentHash (k + 1)⟩ := by
  induction more generalizing count with
  | zero =>
    refine ⟨0, Nat.le_refl 0, nofun, Or.inl rfl, ?_⟩
    rw [poll_zero_eq]
    rfl
  | succ more ih =>
    rw [poll_succ_eq]
    cases hsettled : settles (replies count) with
    | true =>
      refine ⟨0, Nat.zero_le _, nofun, Or.inr hsettled, ?_⟩
      simp only [ending_ask, scripted, hsettled, if_true]
      rfl
    | false =>
      obtain ⟨k, hk, hbefore, hover, hending⟩ := ih (count + 1)
      have hshift : count + 1 + k = count + (k + 1) := by omega
      rw [hshift] at hover hending
      refine ⟨k + 1, Nat.succ_le_succ hk, fun i hi => ?_, hover.imp_left (congrArg Nat.succ), ?_⟩
      · cases i with
        | zero => exact hsettled
        | succ i =>
          have hshift : count + (i + 1) = count + 1 + i := by omega
          rw [hshift]
          exact hbefore i (Nat.lt_of_succ_lt_succ hi)
      · simp only [ending_ask, scripted, hsettled, Bool.false_eq_true, if_false]
        show (((poll intervalMs intentHash more).run.ending _ d (count + 1)).after _).after _ = _
        rw [hending]
        rfl

/-! ## Receipts -/

/-- The error message of the receipt of a committed transaction: the transaction's own or else
    the engine's, reduced to its reason where one is found, or else that of the last poll. -/
def errorOf (answer : TransactionStatus) (found : CommittedDetails) : Option String :=
  match found.errorMessage, found.report.bind (·.errorMessage) with
  | some raw, _ | none, some raw => some ((Wallet.reason? raw).getD raw)
  | none, none => answer.errorMessage

/-- What waiting comes to after the last poll: the questions that follow, and the result. -/
inductive Concludes (intentHash : String) (details : Except Fault CommittedDetails) :
    Except Fault TransactionStatus → List Question → Except Fault Receipt → Prop
  | unanswered (fault : Fault) : Concludes intentHash details (.error fault) [] (.error fault)
  /-- the details are not asked for -/
  | uncommitted (answer : TransactionStatus) (status : ReceiptStatus)
      (h : ReceiptStatus.ofGateway answer.status = status) (hs : status ≠ .success)
      (hf : status ≠ .failure) : Concludes intentHash details (.ok answer) []
        (.ok { Receipt.bare intentHash status with errorMessage := answer.errorMessage })
  /-- the details cannot be had -/
  | undetailed (answer : TransactionStatus) (status : ReceiptStatus) (fault : Fault)
      (h : ReceiptStatus.ofGateway answer.status = status)
      (hcommitted : status = .success ∨ status = .failure) (hfault : details = .error fault) :
      Concludes intentHash details (.ok answer) [.details intentHash]
        (.ok { Receipt.bare intentHash status with errorMessage := answer.errorMessage })
  | detailed (answer : TransactionStatus) (status : ReceiptStatus) (found : CommittedDetails)
      (h : ReceiptStatus.ofGateway answer.status = status)
      (hcommitted : status = .success ∨ status = .failure) (hfound : details = .ok found) :
      Concludes intentHash details (.ok answer) [.details intentHash]
        (.ok { Receipt.ofDetails intentHash status found with
          errorMessage := errorOf answer found })

/-- What follows the last poll: the details of a committed transaction are asked for. -/
def receive (intentHash : String) (polled : Polled) : Work (Except Fault Receipt) :=
  if isCommitted polled.status then
    .ask (.details intentHash) fun found => .done (.ok (receiptOf intentHash polled found))
  else .done (.ok (withError (.bare intentHash polled.status) polled.errorMessage))

theorem awaitReceipt_eq (s : Submission) (intentHash : String) :
    (awaitReceipt s intentHash).run =
      (poll s.pollIntervalMs intentHash (s.pollAttempts - 1)).run.bind
        (proceed (receive intentHash)) := by
  rw [awaitReceipt, run_bind_eq]
  rfl

theorem isCommitted_iff {status : ReceiptStatus} :
    isCommitted status = true ↔ status = .success ∨ status = .failure := by
  cases status <;> simp [isCommitted]

/-- The details' own error goes first. -/
theorem receiptOf_ok (intentHash : String) (answer : TransactionStatus)
    (found : CommittedDetails) :
    receiptOf intentHash (.ofAnswer answer) (.ok found) =
      { Receipt.ofDetails intentHash (.ofGateway answer.status) found with
        errorMessage := errorOf answer found } := by
  have herror : ((found.errorMessage <|> found.report.bind (·.errorMessage)).map
      Wallet.reasonOrSelf <|> answer.errorMessage) = errorOf answer found := by
    rw [errorOf]
    cases found.errorMessage with
    | some raw => rfl
    | none => cases found.report.bind (·.errorMessage) <;> rfl
  rw [← herror]
  rfl

/-- What follows a poll that was answered. -/
theorem receive_concludes (intentHash : String) (answer : TransactionStatus) (count : Nat) :
    ∃ rest result, (receive intentHash (.ofAnswer answer)).ending
        (scripted replies details others) d count = ⟨result, d, count, rest⟩ ∧
      Concludes intentHash details (.ok answer) rest result := by
  cases hcommitted : isCommitted (Polled.ofAnswer answer).status with
  | false =>
    have hstatus := mt isCommitted_iff.2 (Bool.eq_false_iff.1 hcommitted)
    rw [receive, hcommitted]
    exact ⟨[], _, rfl, .uncommitted answer _ rfl (hstatus ∘ Or.inl) (hstatus ∘ Or.inr)⟩
  | true =>
    have hstatus := isCommitted_iff.1 hcommitted
    rw [receive, hcommitted]
    refine ⟨[.details intentHash], _, rfl, ?_⟩
    show Concludes _ _ _ _ (.ok (receiptOf intentHash (.ofAnswer answer) details))
    cases hdetails : details with
    | error fault => exact .undetailed answer _ fault rfl hstatus rfl
    | ok found =>
      rw [receiptOf_ok]
      exact .detailed answer _ found rfl hstatus rfl

/-- **A receipt tells the verdict of the last poll.** Polling goes on until an answer settles the
    matter or the attempts are used up, with one pause between each two polls. A poll that fails
    is the end of it. The details of a committed transaction are asked for once, and a fault in
    getting them is forgiven; those of others are not asked for. -/
theorem await_tells_verdict (s : Submission) (intentHash : String)
    (replies : Nat → Except Fault TransactionStatus) (details : Except Fault CommittedDetails)
    (others : (q : Question) → q.Answer) (d : Desk) :
    let e := (awaitReceipt s intentHash).run.ending (scripted replies details others) d 0
    ∃ last rest, (∀ index, LastPoll replies s.pollAttempts index ↔ index = last) ∧
      e.asked = polls s.pollIntervalMs intentHash (last + 1) ++ rest ∧
      Concludes intentHash details (replies last) rest e.result ∧ e.state = d := by
  obtain ⟨last, hlast, hbefore, hover, hending⟩ := poll_ending replies details
    others d s.pollIntervalMs intentHash (s.pollAttempts - 1) 0
  simp only [Nat.zero_add] at hbefore hover hending
  have hpoll : LastPoll replies s.pollAttempts last :=
    ⟨by omega, hbefore, hover.imp_left fun h => by omega⟩
  have honly : ∀ index, LastPoll replies s.pollAttempts index ↔ index = last :=
    fun index => ⟨fun h => Nat.le_antisymm (h.le hpoll) (hpoll.le h), fun h => h ▸ hpoll⟩
  rw [awaitReceipt_eq, ending_bind, hending]
  refine ⟨last, ?_⟩
  cases hreply : replies last with
  | error fault => exact ⟨[], honly, rfl, .unanswered fault, rfl⟩
  | ok answer =>
    obtain ⟨rest, result, hreceive, hconcludes⟩ := receive_concludes replies details
      others d intentHash answer (last + 1)
    simp only [Except.map, proceed, hreceive]
    exact ⟨rest, honly, rfl, hconcludes, rfl⟩

end LedgerClient.Transaction
