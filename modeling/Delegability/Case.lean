/-
# `Delegability.Case` — a formula with all that is known about it

A case is what a binder hands over: the enclosing function, the formula with the
facts about each node, what the source supports, and the entities that columns
refer to.  Names and paths are still texts here, nodes have no identities yet,
and references to entities are not followed.
-/
import Delegability.Facts

namespace Delegability

/-- A reference into an entity of the case. -/
structure CaseExpansion where
  entity : String
  name : String
deriving DecidableEq

/-- The type of a node. -/
inductive CaseType where
  | optionSet | optionSetValue | view | viewValue
  | record (expand : Option CaseExpansion)
  | other
deriving DecidableEq

/-- What a bare name stands for.  An `outer` name belongs to an outer evaluation. -/
inductive CaseName where
  | localColumn (path : String) (outer : Bool)
  | scopeRecord (outer : Bool)
  | entityExpansion (x : CaseExpansion)
  | other
deriving DecidableEq

/-- What is known about a node. -/
structure CaseFacts where
  rowScoped : Bool := false
  isAsync : Bool := false
  impure : Bool := false
  exempted : Bool := false
  lambdaScoped : Bool := false
  blockScopedConstant : Bool := false
  type? : Option CaseType := none
  name? : Option CaseName := none
deriving DecidableEq, Inhabited

/-- A formula with the facts about its nodes. -/
inductive CaseExpr where
  | first (name : String) (facts : CaseFacts)
  | dotted (left : CaseExpr) (right : String) (facts : CaseFacts)
  | call (head : String) (args : List CaseExpr) (facts : CaseFacts)
  | binary (op : BinaryOp) (left right : CaseExpr) (facts : CaseFacts)
  | unary (op : UnaryOp) (operand : CaseExpr) (facts : CaseFacts)
  | literal (value : Json.Value) (facts : CaseFacts)
  | other (description : String) (facts : CaseFacts)
deriving Inhabited

/-- A formula with all that is known about it. -/
structure Case where
  function : String
  /-- What may be delegated beyond the configuration. -/
  features : Features := {}
  table : SourceMetadata := {}
  entities : Dict String Entity := ∅
  /-- The operator whose left operand the formula is. -/
  operator : Option BinaryOp := none
  expression : CaseExpr

end Delegability
