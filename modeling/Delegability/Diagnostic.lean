/-
# `Delegability.Diagnostic` — messages attached to nodes

Whoever shows the formula finds the messages at its nodes.  A node has at most
one message of each key: a later one of the same key adds nothing.
-/
import Delegability.Expr
import Delegability.Hint

namespace Delegability

/-- How serious a message is. -/
inductive DiagnosticSeverity where
  | suggestion | verbose | warning | moderate | severe | critical
deriving DecidableEq, Inhabited

namespace DiagnosticSeverity

/-- The severities by their names in documents, from the least. -/
def named : List (String × DiagnosticSeverity) :=
  [("suggestion", .suggestion), ("verbose", .verbose), ("warning", .warning),
   ("moderate", .moderate), ("severe", .severe), ("critical", .critical)]

/-- The name in documents. -/
def name : DiagnosticSeverity → String
  | .suggestion => "suggestion"
  | .verbose => "verbose"
  | .warning => "warning"
  | .moderate => "moderate"
  | .severe => "severe"
  | .critical => "critical"

/-- The severity in texts. -/
def text : DiagnosticSeverity → String
  | .suggestion => "SUGGESTION"
  | .verbose => "VERBOSE"
  | .warning => "WARNING"
  | .moderate => "MODERATE"
  | .severe => "SEVERE"
  | .critical => "CRITICAL"

/-- The place of a severity, from the least. -/
def rank (s : DiagnosticSeverity) : Nat := s.ctorIdx

instance : LT DiagnosticSeverity := ⟨fun a b => a.rank < b.rank⟩

instance (a b : DiagnosticSeverity) : Decidable (a < b) :=
  inferInstanceAs (Decidable (a.rank < b.rank))

end DiagnosticSeverity

/-- A message attached to a node. -/
structure Diagnostic where
  severity : DiagnosticSeverity
  node : NodeId
  key : HintKey
  message : String
deriving DecidableEq

namespace Diagnostic

/-- The message of a hint, as a warning. -/
def ofHint (node : NodeId) (h : Hint) : Diagnostic := ⟨.warning, node, h.key, h.message⟩

/-- Whether two messages are of one node and one key. -/
def clashes (a b : Diagnostic) : Bool := a.node = b.node && a.key = b.key

/-- Severity, node and key in one line. -/
def heading (d : Diagnostic) : String :=
  "[" ++ d.severity.text ++ "] " ++ NodeId.text d.node ++ " " ++ d.key

/-- A diagnostic as a value. -/
def value (d : Diagnostic) : Json.Value :=
  .obj [("key", .str d.key), ("message", .str d.message), ("node", .ofNat d.node),
    ("severity", .str d.severity.name)]

end Diagnostic

/-- Messages in the order in which they were attached. -/
abbrev Diagnostics := List Diagnostic

namespace Diagnostics

/-- Whether the node of the message has one of its key. -/
def covers (ds : Diagnostics) (d : Diagnostic) : Bool := ds.any d.clashes

/-- Attaches a message, unless its node has one of its key. -/
def ensure (ds : Diagnostics) (d : Diagnostic) : Diagnostics :=
  if ds.covers d then ds else ds ++ [d]

/-- The messages of a node. -/
def ofNode (ds : Diagnostics) (node : NodeId) : Diagnostics := ds.filter fun d => d.node = node

/-- Messages as a value. -/
def value (ds : Diagnostics) : Json.Value := .arr (ds.map Diagnostic.value)

end Diagnostics

end Delegability
