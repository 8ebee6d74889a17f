/-
  The text in which metrics are published.

  * `Family` is a metric with its description and its samples, `Family.lines`
    its lines;
  * `Metrics.families` are the metrics by name, `Metrics.exposition` the text.
-/
import LedgerClient.Binary.Notation
import LedgerClient.Metrics
import LedgerClient.Text.Numeral

namespace LedgerClient

open Text

namespace Metrics

/-- A metric: a count that only grows, or the sizes of observations. -/
inductive Family where
  | counter (name help : String) (value : Nat)
  | histogram (name help : String) (value : Histogram)

namespace Family

def name : Family → String
  | counter name _ _ | histogram name _ _ => name

def help : Family → String
  | counter _ help _ | histogram _ help _ => help

def kind : Family → String
  | counter .. => "counter"
  | histogram .. => "histogram"

/-- A line with the number of observations up to a bound. -/
def bucketLine (name bound : String) (n : Nat) : String :=
  name ++ "_bucket\x7ble=\"" ++ bound ++ "\"\x7d " ++ numeral n

/-- The lines with the samples of a metric. -/
def samples : Family → List String
  | counter name _ value => [name ++ " " ++ numeral value]
  | histogram name _ h =>
    (h.upTo.map fun (bound, n) => bucketLine name (Binary.plain bound) n) ++
      [bucketLine name "+Inf" h.count, name ++ "_sum " ++ Binary.plain h.sum,
       name ++ "_count " ++ numeral h.count]

/-- The lines of a metric. -/
def lines (f : Family) : List String :=
  ["# HELP " ++ f.name ++ " " ++ f.help, "# TYPE " ++ f.name ++ " " ++ f.kind] ++ f.samples

end Family

/-- The metrics in the order of their names. -/
def families (m : Metrics) : List Family :=
  [.counter "gateway_calls_total" "Total number of gateway API calls" m.gatewayCalls,
   .counter "gateway_errors_total" "Total number of gateway API errors" m.gatewayErrors,
   .histogram "gateway_latency_seconds" "Gateway request latency in seconds" m.gatewayLatency,
   .counter "manifests_built_total" "Total number of manifests built" m.manifestsBuilt,
   .histogram "submission_latency_seconds" "Time from wallet request to final status in seconds"
     m.submissionLatency,
   .counter "transactions_failed_total" "Total number of failed or rejected transactions" m.failed,
   .counter "transactions_submitted_total" "Total number of transactions sent to the wallet"
     m.submitted,
   .counter "transactions_succeeded_total" "Total number of committed successful transactions"
     m.succeeded]

/-- The published text: every line with its line end. -/
def exposition (m : Metrics) : String :=
  String.join ((m.families.flatMap Family.lines).map (· ++ "\n"))

end Metrics

end LedgerClient
