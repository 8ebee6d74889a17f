/-
  The fault behind the error of a wallet.

  * `Declined code message`: the user declined, and `Missing code`: there is no wallet;
  * `Refused code message fault` says by three rules in their order what fault is behind a code and
    a message, with the text that it carries, and `refused` that the rules give the one of
    `refusal`;
  * `refusal_by_precedence`: so each kind of fault has its own condition, and no text is lost.
-/
import LedgerClient.Proofs.Text.Case
import LedgerClient.Proofs.Wallet.Reason

namespace LedgerClient

/-- The explanation of a fault that is behind the error of a wallet. -/
def Fault.carried? : Fault → Option String
  | .walletUnavailable why => some why.text
  | .ledgerRejection reason => some reason
  | _ => none

namespace Wallet

open Text

/-! ## Conditions -/

/-- The code says in letters of any case that the user declined, or the message says so. -/
def Declined (code message : String) : Prop :=
  SameLetters code "rejectedByUser" ∨ SameLetters code "userRejected" ∨
    "rejectedByUser".toList <:+: message.toList

/-- The code in small letters has a word for a wallet that is not there. -/
def Missing (code : String) : Prop :=
  ∃ word ∈ ["walletnotfound", "notconnected", "missingextension"],
    word.toList <:+: code.toList.map Char.toLower

theorem isDeclined_iff {code message : String} :
    isDeclined code message = true ↔ Declined code message := by
  have hrejected : "rejectedbyuser" = lowerAscii "rejectedByUser" := by decide
  have huser : "userrejected" = lowerAscii "userRejected" := by decide
  rw [isDeclined, Bool.or_eq_true, Bool.or_eq_true, beq_iff_eq, beq_iff_eq, hrejected, huser,
    lowerAscii_eq_iff, lowerAscii_eq_iff, contains, occursIn_iff, or_assoc, Declined]

theorem isUnavailable_iff {code : String} : isUnavailable code = true ↔ Missing code := by
  rw [isUnavailable, List.any_eq_true, Missing]
  simp only [contains, occursIn_iff, toList_lowerAscii]

/-! ## Rules -/

/-- The text of an error: its message, or else its code. -/
inductive Stated (code message : String) : String → Prop
  | message : message ≠ "" → Stated code message message
  | code : message = "" → Stated code message code

/-- Why the ledger rejected a transaction: the reason that the message holds, or else the text. -/
inductive Reported (code message : String) : String → Prop
  | reason {reason : String} : reason? message = some reason → Reported code message reason
  | stated {text : String} : reason? message = none → Stated code message text →
      Reported code message text

/-- The fault behind a code and a message. Each rule is for what the rules before it leave, and
    only the last one asks for a reason. -/
inductive Refused (code message : String) : Fault → Prop
  | declined : Declined code message → Refused code message .userRejected
  | missing {text : String} : ¬Declined code message → Missing code → Stated code message text →
      Refused code message (.walletUnavailable (.own text))
  | rejected {reason : String} : ¬Declined code message → ¬Missing code →
      Reported code message reason → Refused code message (.ledgerRejection reason)

variable {code message text : String}

theorem stated (code message : String) :
    Stated code message (if message = "" then code else message) := by
  split
  · exact .code ‹_›
  · exact .message ‹_›

theorem reported (code message : String) :
    Reported code message
      ((reason? message).getD (if message = "" then code else message)) := by
  cases hreason : reason? message with
  | some reason => exact .reason hreason
  | none => exact .stated hreason (stated code message)

/-- **The fault is the one by the rules.** -/
theorem refused (code : Option String) (message : String) :
    Refused (code.getD "") message (refusal code message) := by
  rw [refusal]
  by_cases hdeclined : Declined (code.getD "") message
  · rw [if_pos (isDeclined_iff.2 hdeclined)]
    exact .declined hdeclined
  · rw [if_neg (mt isDeclined_iff.1 hdeclined)]
    by_cases hmissing : Missing (code.getD "")
    · rw [if_pos (isUnavailable_iff.2 hmissing)]
      exact .missing hdeclined hmissing (stated _ _)
    · rw [if_neg (mt isUnavailable_iff.1 hmissing)]
      exact .rejected hdeclined hmissing (reported _ _)

/-! ## Texts -/

theorem Stated.eq_empty_iff (h : Stated code message text) :
    text = "" ↔ code = "" ∧ message = "" := by
  cases h with
  | message hne => exact iff_of_false hne fun h => hne h.2
  | code hempty => exact (and_iff_left hempty).symm

theorem Reported.eq_empty_iff (h : Reported code message text) :
    text = "" ↔ code = "" ∧ message = "" := by
  cases h with
  | stated _ hstated => exact hstated.eq_empty_iff
  | reason hreason =>
    -- there is no reason in an empty message, and an empty reason is none
    refine iff_of_false (reason?_eq_some_iff.1 hreason).1 ?_
    rintro ⟨-, rfl⟩
    cases hreason

/-! ## Precedence -/

/-- **Errors are told apart by rules in a fixed order.** A declined transaction goes before
    everything else, a missing wallet before any reason in the message, and all other errors are
    rejections with that reason, or else with the message or the code. What is told is empty only
    where nothing was. -/
theorem refusal_by_precedence (code : Option String) (message : String) :
    let given := code.getD ""
    let fault := refusal code message
    (fault = .userRejected ↔ Declined given message) ∧
    ((∃ why, fault = .walletUnavailable why) ↔ ¬Declined given message ∧ Missing given) ∧
    ((∃ reason, fault = .ledgerRejection reason) ↔ ¬Declined given message ∧ ¬Missing given) ∧
    (∀ why, fault = .walletUnavailable why → ∃ text, why = .own text ∧ Stated given message text) ∧
    (∀ reason, fault = .ledgerRejection reason → Reported given message reason) ∧
    ∀ text, fault.carried? = some text → (text = "" ↔ given = "" ∧ message = "") := by
  intro given fault
  have hrefused : Refused given message fault := refused code message
  clear_value given fault
  cases hrefused with
  | declined hdeclined =>
    exact ⟨iff_of_true rfl hdeclined, iff_of_false nofun fun h => h.1 hdeclined,
      iff_of_false nofun fun h => h.1 hdeclined, nofun, nofun, nofun⟩
  | @missing text hdeclined hmissing hstated =>
    refine ⟨iff_of_false nofun hdeclined, iff_of_true ⟨_, rfl⟩ ⟨hdeclined, hmissing⟩,
      iff_of_false nofun fun h => h.2 hmissing, ?_, nofun, ?_⟩
    · rintro _ ⟨rfl⟩
      exact ⟨text, rfl, hstated⟩
    · rintro _ ⟨rfl⟩
      exact hstated.eq_empty_iff
  | @rejected reason hdeclined hmissing hreported =>
    refine ⟨iff_of_false nofun hdeclined, iff_of_false nofun fun h => hmissing h.2,
      iff_of_true ⟨_, rfl⟩ ⟨hdeclined, hmissing⟩, nofun, ?_, ?_⟩
    · rintro _ ⟨rfl⟩
      exact hreported
    · rintro _ ⟨rfl⟩
      exact hreported.eq_empty_iff

/-- Also where a message with a reason comes with a code for each of the rules. -/
theorem refusal_by_precedence_message_with_reason :
    let message := "KernelError(PanicMessage(\"no funds@lib.rs:1\"))"
    reason? message = some "no funds" ∧
      (Declined "USERrejected" message ∧ refusal (some "USERrejected") message = .userRejected) ∧
      (refusal (some "err.NotConnected") message = .walletUnavailable (.own message) ∧
        Missing "err.NotConnected" ∧ Stated "err.NotConnected" message message) ∧
      (refusal (some "failed") message = .ledgerRejection "no funds" ∧
        Reported "failed" message "no funds") ∧
      (refusal (some "failed") "" = .ledgerRejection "failed" ∧ "failed" ≠ "") := by
  intro message
  have hdeclined : Declined "USERrejected" message := isDeclined_iff.1 (by decide)
  have hmissing : refusal (some "err.NotConnected") message = .walletUnavailable (.own message) := by
    decide
  have hrejected : refusal (some "failed") message = .ledgerRejection "no funds" := by decide
  have hcode : refusal (some "failed") "" = .ledgerRejection "failed" := by decide
  obtain ⟨-, hwallet, -, htext, -, -⟩ := refusal_by_precedence (some "err.NotConnected") message
  obtain ⟨text, hown, hstated⟩ := htext _ hmissing
  obtain rfl : message = text := Wording.own.inj hown
  have hempty := (refusal_by_precedence (some "failed") "").2.2.2.2.2 "failed" (by rw [hcode]; rfl)
  refine ⟨by decide, ⟨hdeclined, (refusal_by_precedence _ _).1.2 hdeclined⟩,
    ⟨hmissing, (hwallet.1 ⟨_, hmissing⟩).2, hstated⟩,
    ⟨hrejected, (refusal_by_precedence _ _).2.2.2.2.1 _ hrejected⟩, hcode, fun h => ?_⟩
  exact absurd (hempty.1 h).1 (by decide)

end Wallet

end LedgerClient
