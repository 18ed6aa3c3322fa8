/-
# `Delegability.Status` — why a node is not delegated

A status names the reason in one word; its context says in one line what the
reason was found in.
-/
import Delegability.Expr

namespace Delegability

/-- Why a node is not delegated. -/
inductive Status where
  /-- A column lacks the capability or the operator. -/
  | noSupportByColumn
  /-- The node waits for its value. -/
  | asyncPredicate
  /-- The node has effects. -/
  | impureNode
  /-- A call that depends on the row, of a function the source does not know. -/
  | undelegatableFunction
  | other
deriving DecidableEq, Inhabited

namespace Status

/-- The statuses by name. -/
def named : List (String × Status) :=
  [("NoDelSupportByColumn", .noSupportByColumn), ("AsyncPredicate", .asyncPredicate),
   ("ImpureNode", .impureNode), ("UndelegatableFunction", .undelegatableFunction),
   ("Other", .other)]

/-- All statuses. -/
def all : List Status := named.map Prod.snd

/-- The name of a status. -/
def text : Status → String
  | .noSupportByColumn => "NoDelSupportByColumn"
  | .asyncPredicate => "AsyncPredicate"
  | .impureNode => "ImpureNode"
  | .undelegatableFunction => "UndelegatableFunction"
  | .other => "Other"

end Status

namespace Context

/-- A truth value in a context. -/
def ofBool (b : Bool) : String := if b then "true" else "false"

/-- A column lacks support. -/
def column (column : String) : String := "Column:" ++ column

/-- A column lacks support for an operator. -/
def columnOperator (path operator : String) : String :=
  column path ++ ", Operator:" ++ operator

/-- A node waits or has effects. -/
def asyncOrImpure (k : NodeKind) (isAsync isPure : Bool) : String :=
  "Kind:" ++ k.text ++ ", isAsync:" ++ ofBool isAsync ++ ", isPure:" ++ ofBool isPure

/-- A node of a kind that cannot be delegated where it stands. -/
def kind (k : NodeKind) (rowScoped : Bool) : String :=
  "Kind:" ++ k.text ++ ", isRowScoped:" ++ ofBool rowScoped

/-- A name that resolved to nothing. -/
def unresolvedName (k : NodeKind) (name : String) : String :=
  "Kind:" ++ k.text ++ ", unresolved name " ++ name

/-- A call that the source cannot evaluate. -/
def function (name : Option String) : String :=
  "Function:" ++ name.getD "<unresolved>"

/-- A call that is not constant. -/
def notConstant (k : NodeKind) : String :=
  "Kind:" ++ k.text ++ ", isBlockScopedConstant:false"

/-- A cast that the source does not know. -/
def castUnsupported (name : String) : String :=
  "Function:" ++ name ++ ", table does not support AsType"

/-- A cast of nothing. -/
def castMissing (name : String) : String :=
  "Function:" ++ name ++ ", missing argument"

/-- An operator that the source does not know. -/
def operatorUnsupported (op : String) : String :=
  "Operator:" ++ op ++ ", unsupported by table"

/-- A comparison of two values that depend on the row. -/
def bothRowScoped (op : String) : String :=
  "Operator:" ++ op ++ ", both operands are row-scoped"

/-- A reference into an entity that is not known. -/
def entityNotFound (k : NodeKind) (rowScoped : Bool) (identity : String) : String :=
  kind k rowScoped ++ ", no metadata found for entity " ++ identity

end Context

end Delegability
