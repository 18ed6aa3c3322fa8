/-
# `Delegability.Ledger` — all that has been told so far

Validation finds; the ledger tells.  It keeps the messages at nodes, the stored
entries, the counters and the log, and takes findings in one by one.  Nothing
here is ever read by a rule, so what is told cannot change what is found.
-/
import Delegability.Diagnostic
import Delegability.Telemetry

namespace Delegability

/-- How entries are stamped and where they go. -/
structure Tracker where
  /-- Where every entry goes, in this order. -/
  sinks : List Sink
  /-- The stamp of the `n`-th entry. -/
  stamp : Nat → Stamp

/-- All that has been told so far. -/
structure Ledger where
  diagnostics : Diagnostics := []
  entries : List Entry := []
  metrics : Metrics := {}
  /-- The log, with records of every severity. -/
  log : List LogRecord := []
  /-- How many entries have been stamped. -/
  stamped : Nat := 0
deriving Inhabited

namespace Ledger

/-- Adds a record to the log. -/
def logRecord (l : Ledger) (r : LogRecord) : Ledger := { l with log := l.log ++ [r] }

/-- Adds an event to the log. -/
def logEvent (l : Ledger) (e : Event) (fields : List (String × String) := []) : Ledger :=
  l.logRecord (.ofEvent e fields)

/-- Attaches a message to a node. -/
def attach (l : Ledger) (d : Diagnostic) : Ledger :=
  { l with diagnostics := l.diagnostics.ensure d }

/-- Puts an entry into a sink. -/
def put (e : Entry) (l : Ledger) : Sink → Ledger
  | .metrics => { l with metrics := l.metrics.countRejection e.status }
  | .memory => { l with entries := l.entries ++ [e] }
  | .log severity => l.logRecord (e.record severity)
  | .null => l

/-- Puts an entry into all sinks. -/
def record (l : Ledger) (sinks : List Sink) (e : Entry) : Ledger :=
  sinks.foldl (put e) { l with stamped := l.stamped + 1 }

/-- Shows a verdict to a sink. -/
def see (delegable : Bool) (l : Ledger) : Sink → Ledger
  | .metrics => { l with metrics := l.metrics.countVerdict delegable }
  | _ => l

/-- Shows a verdict to all sinks. -/
def recordVerdict (l : Ledger) (sinks : List Sink) (delegable : Bool) : Ledger :=
  sinks.foldl (see delegable) l

/-- Tells a rejection: to the author at its node, to the sinks, and to the log. -/
def tellRejection (t : Tracker) (function : String) (l : Ledger) (r : Rejection) : Ledger :=
  let e := Entry.ofRejection (t.stamp l.stamped) function r
  ((l.attach (.ofHint r.node r.hint)).record t.sinks e).logEvent .rejected
    [("context", r.context), ("function", function), ("node", NodeId.text r.node),
     ("status", r.status.text)]

/-- Tells a finding. -/
def tell (t : Tracker) (function : String) (l : Ledger) : Finding → Ledger
  | .rejection r => l.tellRejection t function r
  | .unknownEntity identity =>
    l.logEvent .entityMetadataMissing [("entity", identity), ("function", function)]

/-- Tells findings, in their order. -/
def tellAll (l : Ledger) (t : Tracker) (function : String) (fs : List Finding) : Ledger :=
  fs.foldl (tell t function) l

end Ledger

end Delegability
