/-
# `Delegability.Strategy` — the operator above a column

A column under an operator has to support that operator.  A strategy is the
operator as the column sees it: which operand it is can matter, since a column
left of `in` is looked up in a list while a column right of it is searched.
-/
import Delegability.Metadata
import Delegability.Operator
import Delegability.Violation

namespace Delegability

/-- The operator above a column, as the column sees it. -/
inductive Strategy where
  /-- Comparisons and arithmetic. -/
  | binary (op : BinaryOp)
  /-- Membership, with the column on the given side. -/
  | membership (op : BinaryOp) (columnOnLeft : Bool)
  | unary (op : UnaryOp)
  /-- Matching the start or the end of the column's text. -/
  | stringMatch (requires : CapabilitySet)
deriving DecidableEq

namespace Strategy

/-- The strategy of a membership operator; other operators have none. -/
def ofMembership (op : BinaryOp) (columnOnLeft : Bool) : Except Violation Strategy :=
  if op.isMembership then .ok (.membership op columnOnLeft)
  else .error (.notMembership op)

/-- The strategy of an operator for its left operand. -/
def ofOperator (op : BinaryOp) : Except Violation Strategy :=
  if op.isMembership then ofMembership op true else .ok (.binary op)

/-- The operator in contexts. -/
def operator : Strategy → String
  | .binary op => op.text
  | .membership op _ => op.text
  | .unary op => op.text
  | .stringMatch c => if c = .single .endsWith then "EndsWith" else "StartsWith"

/-- What the column has to support. -/
def requires : Strategy → CapabilitySet
  | .binary op => .single op.capability
  | .membership op true => .single op.capability
  | .membership _ false => .single .contains
  | .unary op => .single op.capability
  | .stringMatch c => c

/-- Whether a column supports the operator. -/
def isSupported (s : Strategy) (f : Facet) (p : ColumnPath) : Bool :=
  f.allowsOnColumn p s.requires

end Strategy

end Delegability
