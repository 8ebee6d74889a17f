/-
  Metrics: how often the steps of a submission were taken, and how long they
  took.

  * `Histogram` counts observations by size, `Metrics` holds all counts;
  * `Metrics.manifestBuilt`, `Metrics.submission`, `Metrics.outcome` and
    `Metrics.gatewayCall` record what happened, and `Metrics.countsJson` writes
    the counts.
-/
import LedgerClient.Json.Record

namespace LedgerClient

/-! ## Histograms -/

/-- Counts of observations by size. -/
structure Histogram where
  /-- For every bound, the number of observations up to it. -/
  upTo : List (Float × Nat)
  /-- The sum of all observations. -/
  sum : Float
  /-- The number of all observations. -/
  count : Nat

namespace Histogram

/-- The bounds for times in seconds. -/
def bounds : List Float :=
  [0.005, 0.01, 0.025, 0.05, 0.1, 0.25, 0.5, 1, 2.5, 5, 10]

/-- No observations. -/
def empty : Histogram :=
  ⟨bounds.map fun bound => (bound, 0), 0, 0⟩

/-- Adds an observation. -/
def observe (h : Histogram) (x : Float) : Histogram :=
  { upTo := h.upTo.map fun (bound, n) => (bound, if x ≤ bound then n + 1 else n)
    sum := h.sum + x
    count := h.count + 1 }

end Histogram

/-! ## Metrics -/

/-- The time between two moments, given in milliseconds, in seconds. -/
def Metrics.secondsBetween (start stop : Nat) : Float :=
  (stop - start).toFloat / 1000

/-- Counts of what happened to manifests, transactions and gateway calls. -/
structure Metrics where
  manifestsBuilt : Nat
  submitted : Nat
  succeeded : Nat
  failed : Nat
  submissionLatency : Histogram
  gatewayCalls : Nat
  gatewayErrors : Nat
  gatewayLatency : Histogram

namespace Metrics

/-- Nothing has happened. -/
def empty : Metrics :=
  ⟨0, 0, 0, 0, .empty, 0, 0, .empty⟩

/-- Records a manifest. -/
def manifestBuilt (m : Metrics) : Metrics :=
  { m with manifestsBuilt := m.manifestsBuilt + 1 }

/-- Records that a transaction is handed to the wallet. -/
def submission (m : Metrics) : Metrics :=
  { m with submitted := m.submitted + 1 }

/-- Records how a submission ended, and how many seconds it took. -/
def outcome (m : Metrics) (success : Bool) (seconds : Float) : Metrics :=
  { m with
    succeeded := if success then m.succeeded + 1 else m.succeeded
    failed := if success then m.failed else m.failed + 1
    submissionLatency := m.submissionLatency.observe seconds }

/-- Records a call of the gateway. -/
def gatewayCall (m : Metrics) (success : Bool) (seconds : Float) : Metrics :=
  { m with
    gatewayCalls := m.gatewayCalls + 1
    gatewayErrors := if success then m.gatewayErrors else m.gatewayErrors + 1
    gatewayLatency := m.gatewayLatency.observe seconds }

/-- Writes the counts, without the times. -/
def countsJson (m : Metrics) : Json :=
  .obj
    [("manifests_built", .nat m.manifestsBuilt), ("submitted", .nat m.submitted),
     ("succeeded", .nat m.succeeded), ("failed", .nat m.failed),
     ("gateway_calls", .nat m.gatewayCalls), ("gateway_errors", .nat m.gatewayErrors)]

end Metrics

end LedgerClient
