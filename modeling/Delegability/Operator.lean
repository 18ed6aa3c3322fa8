/-
# `Delegability.Operator` — operators of formulas

Each operator has a text in formulas, a name in documents and the one
capability that a source needs to evaluate it.
-/
import Delegability.Capability

namespace Delegability

/-- Operators with two operands. -/
inductive BinaryOp where
  | equal | notEqual | less | lessEqual | greater | greaterEqual
  | and | or
  | isIn | exactIn
  | add | sub | mul | div
deriving DecidableEq, Inhabited

namespace BinaryOp

/-- The operator in formulas. -/
def text : BinaryOp → String
  | .equal => "="
  | .notEqual => "<>"
  | .less => "<"
  | .lessEqual => "<="
  | .greater => ">"
  | .greaterEqual => ">="
  | .and => "And"
  | .or => "Or"
  | .isIn => "in"
  | .exactIn => "exactin"
  | .add => "+"
  | .sub => "-"
  | .mul => "*"
  | .div => "/"

/-- What a source needs to evaluate the operator. -/
def capability : BinaryOp → Capability
  | .equal => .equal
  | .notEqual => .notEqual
  | .less => .lessThan
  | .lessEqual => .lessThanOrEqual
  | .greater => .greaterThan
  | .greaterEqual => .greaterThanOrEqual
  | .and => .and
  | .or => .or
  | .isIn => .isIn
  | .exactIn => .exactIn
  | .add => .add
  | .sub => .sub
  | .mul => .mul
  | .div => .div

/-- The operators by their names in documents. -/
def named : List (String × BinaryOp) :=
  [("equal", .equal), ("not_equal", .notEqual), ("less", .less), ("less_equal", .lessEqual),
   ("greater", .greater), ("greater_equal", .greaterEqual), ("and", .and), ("or", .or),
   ("in", .isIn), ("exact_in", .exactIn), ("add", .add), ("sub", .sub), ("mul", .mul),
   ("div", .div)]

/-- The name in documents. -/
def name (op : BinaryOp) : String :=
  ((named.find? fun p => p.2 = op).map Prod.fst).getD ""

/-- Joins two conditions. -/
def isLogical : BinaryOp → Bool
  | .and | .or => true
  | _ => false

/-- Compares two values. -/
def isComparison : BinaryOp → Bool
  | .equal | .notEqual | .less | .lessEqual | .greater | .greaterEqual => true
  | _ => false

/-- Looks for a value in a list or for a text in a text. -/
def isMembership : BinaryOp → Bool
  | .isIn | .exactIn => true
  | _ => false

end BinaryOp

/-- Operators with one operand. -/
inductive UnaryOp where
  | not | negate
deriving DecidableEq, Inhabited

namespace UnaryOp

/-- The operator in formulas. -/
def text : UnaryOp → String
  | .not => "Not"
  | .negate => "-"

/-- What a source needs to evaluate the operator. -/
def capability : UnaryOp → Capability
  | .not => .not
  | .negate => .negate

/-- The operators by their names in documents. -/
def named : List (String × UnaryOp) := [("not", .not), ("negate", .negate)]

/-- The name in documents. -/
def name : UnaryOp → String
  | .not => "not"
  | .negate => "negate"

end UnaryOp

end Delegability
