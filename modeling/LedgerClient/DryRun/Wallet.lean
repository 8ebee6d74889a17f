/-
  A wallet for dry runs: it answers from a script, and approves everything
  when the script has ended.

  * `DryRun.Wallet.sign` answers one request and keeps it;
  * every request takes the same time, `delayMs`.
-/
import LedgerClient.Text.Numeral
import LedgerClient.Wallet.Message
import LedgerClient.Wallet.Refusal

namespace LedgerClient.DryRun

/-- A line of the script. -/
inductive Reply where
  | approve (intentHash : String)
  | fail (code message : String)
  | unavailable
deriving DecidableEq, Repr

/-- The answer that a line stands for. -/
def Reply.answer : Reply → Except Fault String
  | approve intentHash => .ok intentHash
  | fail code message => .error (Wallet.refusal (some code) message)
  | unavailable => .error (.walletUnavailable (.own "mock wallet offline"))

/-- A scripted wallet. -/
structure Wallet where
  accounts : List WalletAccount
  /-- The replies to come. -/
  replies : List Reply
  /-- The requests so far, the oldest first. -/
  sent : List TransactionRequest
  delayMs : Nat
  /-- The number of requests approved without a script. -/
  approved : Nat

namespace Wallet

/-- A wallet that has shared the given accounts. -/
def sharing (accounts : List WalletAccount) (delayMs : Nat) : Wallet :=
  ⟨accounts, [], [], delayMs, 0⟩

/-- Answers a request. -/
def sign (w : Wallet) (request : TransactionRequest) : Except Fault String × Wallet :=
  let w := { w with sent := w.sent ++ [request] }
  match w.replies with
  | reply :: replies => (reply.answer, { w with replies := replies })
  | [] => (.ok ("txid_mock_" ++ Text.numeral w.approved), { w with approved := w.approved + 1 })

end Wallet

end LedgerClient.DryRun
