/-
# `Delegability.Analysis` — a case from end to end

One case, one validation: the report, and all that was told on the way.
-/
import Delegability.Case.Resolve
import Delegability.Config
import Delegability.Session

namespace Delegability

open Json (Value)

/-- The outcome of a case. -/
structure Analysis where
  report : Report
  ledger : Ledger

/-- Why a case has no outcome. -/
inductive AnalysisError where
  | fault (why : CaseFault)
  /-- A rule was applied where it may not be. -/
  | violation (why : Violation)
deriving DecidableEq

namespace Analysis

/-- Resolves and judges a case. -/
def run (stamp : Nat → Stamp) (config : Config) (c : Case) : Except AnalysisError Analysis := do
  let problem ← (c.resolve .builtins config.features).mapError .fault
  let op ← problem.strategy.mapError .violation
  let (report, session) ←
    (({} : Session).validate ⟨config.telemetry.sinks, stamp⟩ problem.scope problem.expression
      op).mapError .violation
  return ⟨report, session.ledger⟩

/-- The lines about hints. -/
def hintLines (ds : Diagnostics) : List String :=
  if ds.isEmpty then []
  else "Hints:" :: ds.map fun d => "  - " ++ d.heading ++ ": " ++ d.message

/-- The outcome for people: the report, and the hints at the nodes. -/
def explanation (a : Analysis) : String :=
  a.report.text ++ unlines (hintLines a.ledger.diagnostics)

/-- The outcome as a value. -/
def value (a : Analysis) : Value :=
  .obj [("diagnostics", a.ledger.diagnostics.value), ("metrics", a.ledger.metrics.value),
    ("report", a.report.value), ("telemetry", .arr (a.ledger.entries.map Entry.value))]

end Analysis

end Delegability
