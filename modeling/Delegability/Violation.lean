/-
# `Delegability.Violation` — rules applied where they may not be

Some rules are only for some nodes.  To apply one elsewhere is a fault of the
caller, not of the formula, and is kept apart from every verdict.
-/
import Delegability.Operator

namespace Delegability

/-- A rule applied where it may not be. -/
inductive Violation where
  /-- Validation on behalf of a function without a name. -/
  | unnamedFunction
  /-- The rule for columns, on a name that does not depend on the row. -/
  | columnOutsideRow (name : String)
  /-- The strategy of membership, for another operator. -/
  | notMembership (op : BinaryOp)
deriving DecidableEq

/-- The message of a violation. -/
def Violation.message : Violation → String
  | .unnamedFunction => "delegation validator requires a named function"
  | .columnOutsideRow n => "column check on non-row-scoped name " ++ n
  | .notMembership op => op.text ++ " is not a membership operator"

end Delegability
