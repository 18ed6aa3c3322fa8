/-
# `Delegability.Report` — the outcome of a validation

What was judged, on whose behalf, the verdict, and every rejection on the way to
it.  A report is a text for people and a value for programs.
-/
import Delegability.Format.Metadata
import Delegability.Log
import Delegability.Rules

namespace Delegability

open Json (Value)

/-- The outcome of a validation. -/
structure Report where
  function : String
  requires : CapabilitySet
  root : NodeId
  expression : String
  delegable : Bool
  /-- The status of the rejection that decided. -/
  status? : Option Status
  /-- The rejections in the order of finding. -/
  rejections : List Rejection
deriving DecidableEq

/-- A rejection as a value. -/
def Rejection.value (r : Rejection) : Value :=
  .obj [("context", .str r.context), ("key", .str r.hint.key), ("message", .str r.hint.message),
    ("node", .ofNat r.node), ("node_kind", .str r.kind.name), ("status", .str r.status.text)]

/-- A rejection in two lines. -/
def Rejection.lines (r : Rejection) : List String :=
  ["  - " ++ NodeId.text r.node ++ " " ++ r.kind.text ++ " " ++ r.status.text ++ ": " ++
     r.hint.message,
   "    context: " ++ r.context]

namespace Report

/-- The report of a verdict. -/
def ofVerdict (f : DelegableFunction) (root : Expr) (v : Verdict) (rejections : List Rejection) :
    Report where
  function := f.name
  requires := f.requires
  root := root.id
  expression := root.text
  delegable := v.isDelegable
  status? := v.status?
  rejections := rejections

/-- The lines about the verdict. -/
def verdictLines (r : Report) : List String :=
  if r.delegable then ["Status: DELEGABLE"]
  else
    match r.status? with
    | some s => ["Status: NOT DELEGABLE", "Reason: " ++ s.text]
    | none => ["Status: NOT DELEGABLE"]

/-- The lines about rejections. -/
def rejectionLines (r : Report) : List String :=
  if r.rejections.isEmpty then [] else "Rejections:" :: r.rejections.flatMap Rejection.lines

/-- The lines of a report. -/
def lines (r : Report) : List String :=
  ["=== DELEGATION REPORT ===",
   "Function: " ++ r.function ++ " (requires " ++ r.requires.text ++ ")",
   "Expression: " ++ r.expression ++ " [" ++ NodeId.text r.root ++ "]"] ++
  r.verdictLines ++ r.rejectionLines

/-- A report for people. -/
def text (r : Report) : String := unlines r.lines

/-- A report as a value. -/
def value (r : Report) : Value :=
  .obj [("capability", r.requires.value), ("delegable", .bool r.delegable),
    ("expression", .str r.expression), ("function", .str r.function),
    ("rejections", .arr (r.rejections.map Rejection.value)), ("root", .ofNat r.root),
    ("status", .ofOption (fun s => .str s.text) r.status?)]

end Report

end Delegability
