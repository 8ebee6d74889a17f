import LedgerClient.DryRun.Machine
import LedgerClient.Main
import LedgerClient.Metrics.Exposition
import LedgerClient.Proofs.Address.Validation
import LedgerClient.Proofs.Amount.Canonical
import LedgerClient.Proofs.Config.Environment
import LedgerClient.Proofs.Connection.Mirror
import LedgerClient.Proofs.Connection.Overtaking
import LedgerClient.Proofs.Connection.Refusal
import LedgerClient.Proofs.Flow.Accounting
import LedgerClient.Proofs.Flow.Books
import LedgerClient.Proofs.Flow.Rounds
import LedgerClient.Proofs.Flow.Sending
import LedgerClient.Proofs.Flow.Telling
import LedgerClient.Proofs.Flow.Turns
import LedgerClient.Proofs.Job.Course
import LedgerClient.Proofs.Json.Codecs
import LedgerClient.Proofs.Ledger.Together
import LedgerClient.Proofs.Manifest.Audit
import LedgerClient.Proofs.Manifest.Building
import LedgerClient.Proofs.Manifest.Render
import LedgerClient.Proofs.Manifest.Unambiguous
import LedgerClient.Proofs.Manifest.Vetted
import LedgerClient.Proofs.Operation.Build
import LedgerClient.Proofs.Operation.Reading
import LedgerClient.Proofs.State.Documents
import LedgerClient.Proofs.State.Evolution
import LedgerClient.Proofs.Transaction.Polling
import LedgerClient.Proofs.Manifest.Sweep
import LedgerClient.Proofs.Receipt.Entities
import LedgerClient.Proofs.Transaction.Verdict
import LedgerClient.Proofs.Wallet.Extraction
import LedgerClient.Proofs.Wallet.Precedence
import LedgerClient.Proofs.Balances.Totals
import LedgerClient.Proofs.State.Answers
import LedgerClient.Proofs.State.Spelling
import LedgerClient.Proofs.State.Misspelling
import LedgerClient.Proofs.Decimal.Agreement
import LedgerClient.Proofs.Staker.Records
import LedgerClient.Proofs.Staker.Signs
