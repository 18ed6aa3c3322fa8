/-
# `Delegability.Pass` — one pass over a formula

Every rule gives a verdict.  A rejection is also noted in the pass, the first
time its node is rejected; a node that fails because a node below it failed
passes that node's rejection on.  What the pass notes is all that is ever told
to anyone: hints, telemetry and log lines are made from its findings afterwards.

The other thing a pass writes are marks: nodes it has found to be constant.
-/
import Delegability.Hint
import Delegability.Status
import Delegability.Violation

namespace Delegability

/-- Why a node was rejected. -/
structure Rejection where
  status : Status
  node : NodeId
  kind : NodeKind
  /-- What the author of the formula is told. -/
  hint : Hint
  /-- What the reason was found in. -/
  context : String
deriving DecidableEq, Inhabited

/-- The outcome of a rule. -/
inductive Verdict where
  | delegable
  | rejected (why : Rejection)
deriving DecidableEq, Inhabited

namespace Verdict

/-- Whether the node can be delegated. -/
def isDelegable : Verdict → Bool
  | .delegable => true
  | .rejected _ => false

/-- Why the node was rejected. -/
def reason? : Verdict → Option Rejection
  | .delegable => none
  | .rejected r => some r

/-- The status of the rejection. -/
def status? (v : Verdict) : Option Status := v.reason?.map Rejection.status

end Verdict

/-- What a pass notes. -/
inductive Finding where
  | rejection (r : Rejection)
  /-- A reference into an entity that is not known. -/
  | unknownEntity (identity : String)
deriving DecidableEq

/-- The rejection of a finding. -/
def Finding.rejection? : Finding → Option Rejection
  | .rejection r => some r
  | .unknownEntity _ => none

/-- The state of a pass. -/
structure Pass where
  /-- The nodes found to be constant, by this pass or before it. -/
  marks : List NodeId := []
  /-- What was found, in the order of finding. -/
  findings : List Finding := []
deriving DecidableEq, Inhabited

namespace Pass

/-- The rejections, in the order of finding. -/
def rejections (p : Pass) : List Rejection := p.findings.filterMap Finding.rejection?

/-- Whether a rejection of the node has been noted. -/
def hasRejected (p : Pass) (id : NodeId) : Bool := p.rejections.any fun r => r.node = id

/-- Notes a finding. -/
def note (p : Pass) (f : Finding) : Pass := { p with findings := p.findings ++ [f] }

/-- Notes a rejection, unless one of the same node has been noted. -/
def noteRejection (p : Pass) (r : Rejection) : Pass :=
  if p.hasRejected r.node then p else p.note (.rejection r)

/-- Marks a node as constant. -/
def mark (p : Pass) (id : NodeId) : Pass :=
  if p.marks.contains id then p else { p with marks := p.marks ++ [id] }

end Pass

/-- A step of a pass. -/
abbrev Check := StateT Pass (Except Violation)

namespace Check

/-- Nothing stands against delegating the node. -/
def accept : Check Verdict := pure .delegable

/-- Rejects a node. -/
def reject (r : Rejection) : Check Verdict := do
  modify (·.noteRejection r)
  return .rejected r

/-- Goes on only if the first check accepts. -/
def andThen (first next : Check Verdict) : Check Verdict := do
  match ← first with
  | .delegable => next
  | .rejected r => return .rejected r

end Check

end Delegability
