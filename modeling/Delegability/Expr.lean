/-
# `Delegability.Expr` — formulas as trees

The formulas that are judged.  Every node has an identity, under which facts
about it are recorded elsewhere; nothing in this module assumes that identities
differ.
-/
import Delegability.Json.Value
import Delegability.Name
import Delegability.Operator

namespace Delegability

/-- The identity of a node.  Identities have no bound; a program that keeps them in words of 32
bits can number formulas of fewer than `2 ^ 32` nodes, and numbers those alike. -/
abbrev NodeId := Nat

/-- A node as it stands in reports. -/
def NodeId.text (id : NodeId) : String := "#" ++ toString id

/-- Kinds of nodes. -/
inductive NodeKind where
  | call | dottedName | firstName | binaryOp | unaryOp | literal | other
deriving DecidableEq, Inhabited

namespace NodeKind

/-- The kind in reports. -/
def text : NodeKind → String
  | .call => "Call"
  | .dottedName => "DottedName"
  | .firstName => "FirstName"
  | .binaryOp => "BinaryOp"
  | .unaryOp => "UnaryOp"
  | .literal => "Literal"
  | .other => "Other"

/-- The kinds by their names in documents. -/
def named : List (String × NodeKind) :=
  [("call", .call), ("dotted_name", .dottedName), ("first_name", .firstName),
   ("binary_op", .binaryOp), ("unary_op", .unaryOp), ("literal", .literal), ("other", .other)]

/-- The name in documents. -/
def name (k : NodeKind) : String :=
  ((named.find? fun p => p.2 = k).map Prod.fst).getD ""

/-- The kinds that may wait for a value where the features allow it. -/
def isAsyncDelegable : NodeKind → Bool
  | .call | .firstName | .dottedName => true
  | _ => false

end NodeKind

/-- A formula. -/
inductive Expr where
  /-- `head(args…)` -/
  | call (id : NodeId) (head : Name) (args : List Expr)
  /-- `left.right` -/
  | dotted (id : NodeId) (left : Expr) (right : Name)
  /-- A bare name. -/
  | first (id : NodeId) (name : Name)
  | binary (id : NodeId) (op : BinaryOp) (left right : Expr)
  | unary (id : NodeId) (op : UnaryOp) (operand : Expr)
  | literal (id : NodeId) (value : Json.Value)
  /-- Anything else, by a description. -/
  | other (id : NodeId) (description : String)
deriving Inhabited

namespace Expr

/-- The identity of the root. -/
def id : Expr → NodeId
  | .call id .. | .dotted id .. | .first id .. | .binary id .. | .unary id .. | .literal id ..
  | .other id .. => id

/-- The kind of the root. -/
def kind : Expr → NodeKind
  | .call .. => .call
  | .dotted .. => .dottedName
  | .first .. => .firstName
  | .binary .. => .binaryOp
  | .unary .. => .unaryOp
  | .literal .. => .literal
  | .other .. => .other

mutual

/-- The formula as it is written. -/
def text : Expr → String
  | .call _ head args => head.text ++ "(" ++ textArgs args ++ ")"
  | .dotted _ left right => left.text ++ "." ++ right.text
  | .first _ name => name.text
  | .binary _ op left right => left.text ++ " " ++ op.text ++ " " ++ right.text
  | .unary _ .not operand => "Not(" ++ operand.text ++ ")"
  | .unary _ .negate operand => "-" ++ operand.text
  | .literal _ value => value.text
  | .other _ description => description

/-- Arguments, with commas between them. -/
def textArgs : List Expr → String
  | [] => ""
  | [e] => e.text
  | e :: f :: es => e.text ++ ", " ++ textArgs (f :: es)

end

mutual

/-- All nodes, each after the nodes below it, left before right. -/
def postorder : Expr → List Expr
  | .call id head args => postorderArgs args ++ [.call id head args]
  | .dotted id left right => left.postorder ++ [.dotted id left right]
  | .first id name => [.first id name]
  | .binary id op left right => left.postorder ++ right.postorder ++ [.binary id op left right]
  | .unary id op operand => operand.postorder ++ [.unary id op operand]
  | .literal id value => [.literal id value]
  | .other id description => [.other id description]

/-- The nodes of arguments. -/
def postorderArgs : List Expr → List Expr
  | [] => []
  | e :: es => e.postorder ++ postorderArgs es

end

/-- The first node with a given identity. -/
def node? (e : Expr) (id : NodeId) : Option Expr :=
  e.postorder.find? fun x => x.id = id

end Expr

end Delegability
