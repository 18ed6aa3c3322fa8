/-
# `Delegability.Session` — validations one after the other

A session runs over one formula and one table of facts.  What goes from one step
to the next are the marks, which later rules see, and the ledger, which they do
not.  A step is either a whole validation with its report, or a pass in which
single rules are asked.
-/
import Delegability.Ledger
import Delegability.Report

namespace Delegability

/-- What goes from one step to the next. -/
structure Session where
  /-- The nodes found to be constant. -/
  marks : List NodeId := []
  ledger : Ledger := {}
deriving Inhabited

namespace Session

/-- A new pass of the session. -/
def newPass (s : Session) : Pass := { marks := s.marks }

/-- Takes over what a pass has found. -/
def finishPass (s : Session) (t : Tracker) (function : String) (p : Pass) : Session where
  marks := p.marks
  ledger := s.ledger.tellAll t function p.findings

/-- Marks a node as constant. -/
def mark (s : Session) (id : NodeId) : Session :=
  { s with marks := if s.marks.contains id then s.marks else s.marks ++ [id] }

/-- Adds an event to the log. -/
def logEvent (s : Session) (e : Event) (fields : List (String × String)) : Session :=
  { s with ledger := s.ledger.logEvent e fields }

/-- Shows a verdict to the sinks. -/
def recordVerdict (s : Session) (t : Tracker) (v : Verdict) : Session :=
  { s with ledger := s.ledger.recordVerdict t.sinks v.isDelegable }

/-! ## Validation -/

/-- Judges a formula and tells what was found.  The function needs a name. -/
def validate (s : Session) (t : Tracker) (scope : Scope) (root : Expr) (op : Option Strategy) :
    Except Violation (Report × Session) :=
  let name := scope.function.name
  let node := NodeId.text root.id
  if name = "" then .error .unnamedFunction
  else do
    let (verdict, pass) ← (scope.validateNode root op).run s.newPass
    let told := (s.logEvent .checkBegin [("function", name), ("node", node)]).finishPass t name pass
    let done := (told.recordVerdict t verdict).logEvent .checkComplete
      [("delegable", Context.ofBool verdict.isDelegable), ("function", name), ("node", node)]
    return (.ofVerdict scope.function root verdict pass.rejections, done)

end Session

/-! ## Single rules -/

/-- A rule asked by itself. -/
inductive RuleCall where
  /-- The rule of a node, whatever its kind. -/
  | node (e : Expr) (op : Option Strategy)
  /-- Effects and waiting. -/
  | readiness (id : NodeId) (kind : NodeKind)
  /-- A bare name that depends on the row. -/
  | column (id : NodeId) (name : Name) (op : Option Strategy) (required : CapabilitySet)
  | call (id : NodeId) (args : List Expr)
  | genericCall (id : NodeId) (args : List Expr) (allowVarying : Bool)
  | serverSide (f : DelegableFunction) (args : List Expr)
  /-- A rejection by the caller. -/
  | reject (r : Rejection)

/-- What a rule answers. -/
inductive RuleAnswer where
  | verdict (v : Verdict)
  | serverSide (b : Bool)
deriving DecidableEq

namespace RuleCall

/-- Asks the rule. -/
def run (s : Scope) : RuleCall → Check RuleAnswer
  | .node e op => .verdict <$> s.validateNode e op
  | .readiness id k => .verdict <$> s.readiness id k
  | .column id name op required => .verdict <$> s.columnRule id name op required
  | .call id args => .verdict <$> s.callRule id (s.judgeArgs args)
  | .genericCall id args allowVarying =>
    .verdict <$> s.genericCall id (s.judgeArgs args) allowVarying
  | .serverSide f args => .serverSide <$> s.serverSide f (s.judgeArgs args)
  | .reject r => .verdict <$> Check.reject r

/-- Asks rules one after the other; a violation is the answer of its call and
changes nothing. -/
def runAll (s : Scope) : List RuleCall → Pass → List (Except Violation RuleAnswer) × Pass
  | [], p => ([], p)
  | c :: cs, p =>
    match (c.run s).run p with
    | .ok (a, p') =>
      let (as, q) := runAll s cs p'
      (.ok a :: as, q)
    | .error v =>
      let (as, q) := runAll s cs p
      (.error v :: as, q)

end RuleCall

namespace Session

/-- What a pass of single rules gives. -/
structure PassResult where
  answers : List (Except Violation RuleAnswer)
  rejections : List Rejection
  session : Session

/-- Asks rules in one pass and tells what was found. -/
def runPass (s : Session) (t : Tracker) (scope : Scope) (calls : List RuleCall) : PassResult :=
  let (answers, pass) := RuleCall.runAll scope calls s.newPass
  ⟨answers, pass.rejections, s.finishPass t scope.function.name pass⟩

end Session

end Delegability
