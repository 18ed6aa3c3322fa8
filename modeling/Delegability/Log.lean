/-
# `Delegability.Log` — what the program says about itself

A record has a severity, an event and fields; its line is one JSON object with
the event and the severity in front and the fields in the order of their keys.
The program keeps all records; which of them are written is decided by the
least severity that is of interest, and by nothing else.
-/
import Delegability.Text.Escape

namespace Delegability

/-- How much a record matters. -/
inductive Severity where
  | trace | info | warn | error | fatal
deriving DecidableEq, Inhabited

namespace Severity

/-- The severities by their names in documents, from the least. -/
def named : List (String × Severity) :=
  [("trace", .trace), ("info", .info), ("warn", .warn), ("error", .error), ("fatal", .fatal)]

/-- The name in documents. -/
def name : Severity → String
  | .trace => "trace"
  | .info => "info"
  | .warn => "warn"
  | .error => "error"
  | .fatal => "fatal"

/-- The severity of a name. -/
def ofName? (s : String) : Option Severity := named.lookup s

/-- The severity in log lines. -/
def text : Severity → String
  | .trace => "TRACE"
  | .info => "INFO"
  | .warn => "WARN"
  | .error => "ERROR"
  | .fatal => "FATAL"

/-- The place of a severity, from the least. -/
def rank (s : Severity) : Nat := s.ctorIdx

instance : LE Severity := ⟨fun a b => a.rank ≤ b.rank⟩

instance (a b : Severity) : Decidable (a ≤ b) := inferInstanceAs (Decidable (a.rank ≤ b.rank))

end Severity

/-- What the program reports of itself. -/
inductive Event where
  | configLoaded | caseLoaded
  | checkBegin | checkComplete | rejected
  | entityMetadataMissing
  | explainBegin | explainComplete
  | commandFailed
deriving DecidableEq

namespace Event

/-- The event in log lines. -/
def text : Event → String
  | .configLoaded => "CONFIG_LOADED"
  | .caseLoaded => "CASE_LOADED"
  | .checkBegin => "DELEGATION_CHECK_BEGIN"
  | .checkComplete => "DELEGATION_CHECK_COMPLETE"
  | .rejected => "DELEGATION_REJECTED"
  | .entityMetadataMissing => "ENTITY_METADATA_MISSING"
  | .explainBegin => "EXPLAIN_BEGIN"
  | .explainComplete => "EXPLAIN_COMPLETE"
  | .commandFailed => "COMMAND_FAILED"

/-- All events. -/
def all : List Event :=
  [.configLoaded, .caseLoaded, .checkBegin, .checkComplete, .rejected, .entityMetadataMissing,
   .explainBegin, .explainComplete, .commandFailed]

/-- The event of a text in log lines. -/
def ofText? (s : String) : Option Event := all.find? fun e => e.text = s

/-- How much the event matters. -/
def severity : Event → Severity
  | .checkBegin | .checkComplete | .rejected => .trace
  | .entityMetadataMissing => .warn
  | .commandFailed => .error
  | _ => .info

end Event

/-- A record of the log. -/
structure LogRecord where
  severity : Severity
  /-- What happened. -/
  event : String
  /-- The fields, in any order. -/
  fields : List (String × String) := []
deriving DecidableEq

namespace LogRecord

/-- The record of an event, at the event's severity. -/
def ofEvent (e : Event) (fields : List (String × String) := []) : LogRecord :=
  ⟨e.severity, e.text, fields⟩

/-- The fields in the order of their keys; fields of one key keep their order. -/
def sortedFields (r : LogRecord) : List (String × String) :=
  r.fields.mergeSort fun a b => a.1 ≤ b.1

/-- A key and its value. -/
def pair (p : String × String) : String :=
  Text.logStyle.quote p.1 ++ ":" ++ Text.logStyle.quote p.2

/-- All pairs of the line, in the order of the line. -/
def pairs (r : LogRecord) : List (String × String) :=
  ("event", r.event) :: ("severity", r.severity.text) :: r.sortedFields

/-- The line of a record, without its end. -/
def line (r : LogRecord) : String :=
  r"{" ++ ",".intercalate (r.pairs.map pair) ++ r"}"

/-- The lines of the records that matter at least so much. -/
def linesFrom (minimum : Severity) (log : List LogRecord) : List String :=
  (log.filter fun r => minimum ≤ r.severity).map line

end LogRecord

/-- The text of lines, each with its end. -/
def unlines (lines : List String) : String :=
  String.join (lines.map (· ++ "\n"))

end Delegability
