/-
# `Delegability.Telemetry` — rejections as they are collected

Each rejection that a pass notes becomes one entry, with a stamp that tells it
from all others.  Where entries go is a list of sinks: counters, a store, the
log.  Counters also see the verdict of every validation.
-/
import Delegability.Log
import Delegability.Pass

namespace Delegability

open Json (Value)

/-- What tells an entry from all others. -/
structure Stamp where
  id : String
  /-- The time of the entry, as documents write it. -/
  timestamp : String
  /-- The same time, as log lines write it. -/
  logTimestamp : String
deriving DecidableEq, Inhabited

/-- A rejection as it is collected. -/
structure Entry where
  stamp : Stamp
  status : Status
  node : NodeId
  kind : NodeKind
  function : String
  context : String
deriving DecidableEq

namespace Entry

/-- The entry of a rejection. -/
def ofRejection (stamp : Stamp) (function : String) (r : Rejection) : Entry :=
  ⟨stamp, r.status, r.node, r.kind, function, r.context⟩

/-- An entry as a value, without its stamp. -/
def members (e : Entry) : List (String × Value) :=
  [("context", .str e.context), ("function", .str e.function), ("node", .ofNat e.node),
   ("node_kind", .str e.kind.name), ("status", .str e.status.text)]

/-- An entry as a value. -/
def value (e : Entry) : Value :=
  .object (("id", .str e.stamp.id) :: ("timestamp", .str e.stamp.timestamp) :: e.members)

/-- An entry as a record of the log. -/
def record (e : Entry) (severity : Severity) : LogRecord :=
  ⟨severity, Event.text .rejected,
    [("context", e.context), ("function", e.function), ("id", e.stamp.id),
     ("kind", e.kind.text), ("node", NodeId.text e.node), ("status", e.status.text),
     ("timestamp", e.stamp.logTimestamp)]⟩

end Entry

/-- Counters over validations and rejections, each a word of 64 bits. -/
structure Metrics where
  /-- Validations, and those that ended either way. -/
  validations : UInt64 := 0
  delegable : UInt64 := 0
  rejected : UInt64 := 0
  /-- Rejections by status. -/
  noSupportByColumn : UInt64 := 0
  asyncPredicate : UInt64 := 0
  impureNode : UInt64 := 0
  undelegatableFunction : UInt64 := 0
  other : UInt64 := 0
deriving DecidableEq, Inhabited

namespace Metrics

/-- The number of rejections of a status. -/
def count (m : Metrics) : Status → Nat
  | .noSupportByColumn => m.noSupportByColumn.toNat
  | .asyncPredicate => m.asyncPredicate.toNat
  | .impureNode => m.impureNode.toNat
  | .undelegatableFunction => m.undelegatableFunction.toNat
  | .other => m.other.toNat

/-- Counts a rejection. -/
def countRejection (m : Metrics) : Status → Metrics
  | .noSupportByColumn => { m with noSupportByColumn := m.noSupportByColumn + 1 }
  | .asyncPredicate => { m with asyncPredicate := m.asyncPredicate + 1 }
  | .impureNode => { m with impureNode := m.impureNode + 1 }
  | .undelegatableFunction => { m with undelegatableFunction := m.undelegatableFunction + 1 }
  | .other => { m with other := m.other + 1 }

/-- Counts a validation. -/
def countVerdict (m : Metrics) (delegable : Bool) : Metrics :=
  if delegable then { m with validations := m.validations + 1, delegable := m.delegable + 1 }
  else { m with validations := m.validations + 1, rejected := m.rejected + 1 }

/-- A counter as a value. -/
def counter (n : UInt64) : Value := .ofNat n.toNat

/-- The counters by name. -/
def members (m : Metrics) : List (String × Value) :=
  [("validations", counter m.validations), ("delegable", counter m.delegable),
   ("rejected", counter m.rejected), ("no_del_support_by_column", counter m.noSupportByColumn),
   ("async_predicate", counter m.asyncPredicate), ("impure_node", counter m.impureNode),
   ("undelegatable_function", counter m.undelegatableFunction), ("other", counter m.other)]

/-- The counters in their own order. -/
def text (m : Metrics) : String := (Value.obj m.members).text

/-- The counters as a value. -/
def value (m : Metrics) : Value := .object m.members

end Metrics

/-- Where entries go. -/
inductive Sink where
  | metrics
  | memory
  | log (severity : Severity)
  | null
deriving DecidableEq

/-- The severity of entries in the log, if none is given. -/
def Sink.defaultSeverity : Severity := .info

end Delegability
