/-
# `Delegability.Case.Resolve` — from a case to a problem

Resolving gives every node its identity, makes names of texts, and looks up what
calls call.  Identities count the nodes from zero, each after the nodes below
it, so the identity of a node is the number of nodes before it in that order.
The facts are resolved in the same order; the first fault is the outcome.
-/
import Delegability.Case
import Delegability.Rules

namespace Delegability

/-- Why a case cannot be resolved. -/
inductive CaseFault where
  /-- The enclosing function is not registered. -/
  | unknownFunction (name : String)
  /-- The column of a reference is not a name. -/
  | badName (why : NameError)
  /-- A path has a piece that is not a name. -/
  | badPath (path : String) (why : NameError)
deriving DecidableEq

/-- The message of a fault. -/
def CaseFault.message : CaseFault → String
  | .unknownFunction n => "Function '" ++ n ++ "' is not registered"
  | .badName e => e.message
  | .badPath p e => "column path '" ++ p ++ "': " ++ e.message

/-- A formula that is ready to be judged. -/
structure Problem where
  function : DelegableFunction
  expression : Expr
  facts : FactTable
  table : SourceMetadata
  /-- The operator whose left operand the formula is. -/
  operator : Option BinaryOp

namespace Problem

/-- The operator above the formula, as the formula sees it. -/
def strategy (p : Problem) : Except Violation (Option Strategy) :=
  match p.operator with
  | none => .ok none
  | some op => (Strategy.ofOperator op).map some

/-- What the formula is judged by. -/
def scope (p : Problem) : Scope := ⟨p.function, p.facts, p.table.facetFor p.function.requires⟩

end Problem

/-! ## Nodes and their identities -/

namespace CaseExpr

/-- A name for any text. -/
def madeName (s : String) : Name := (Name.makeValid s).1

mutual

/-- The number of nodes. -/
def size : CaseExpr → Nat
  | .first .. => 1
  | .dotted left _ _ => left.size + 1
  | .call _ args _ => sizeArgs args + 1
  | .binary _ left right _ => left.size + right.size + 1
  | .unary _ operand _ => operand.size + 1
  | .literal .. => 1
  | .other .. => 1

/-- The number of nodes of arguments. -/
def sizeArgs : List CaseExpr → Nat
  | [] => 0
  | e :: es => e.size + sizeArgs es

end

mutual

/-- The formula, with identities from `start` on. -/
def number (start : NodeId) : CaseExpr → Expr
  | .first name _ => .first start (madeName name)
  | .dotted left right _ => .dotted (start + left.size) (left.number start) (madeName right)
  | .call head args _ => .call (start + sizeArgs args) (madeName head) (numberArgs start args)
  | .binary op left right _ =>
    .binary (start + left.size + right.size) op (left.number start)
      (right.number (start + left.size))
  | .unary op operand _ => .unary (start + operand.size) op (operand.number start)
  | .literal value _ => .literal start value
  | .other description _ => .other start description

/-- Arguments, with identities from `start` on. -/
def numberArgs (start : NodeId) : List CaseExpr → List Expr
  | [] => []
  | e :: es => e.number start :: numberArgs (start + e.size) es

end

/-- What is said about a node: its facts and the head of its call. -/
structure NodeRecord where
  facts : CaseFacts
  head? : Option Name := none

mutual

/-- What is said about all nodes, in the order of their identities. -/
def records : CaseExpr → List NodeRecord
  | .first _ facts => [{ facts }]
  | .dotted left _ facts => left.records ++ [{ facts }]
  | .call head args facts => recordsArgs args ++ [{ facts, head? := some (madeName head) }]
  | .binary _ left right facts => left.records ++ right.records ++ [{ facts }]
  | .unary _ operand facts => operand.records ++ [{ facts }]
  | .literal _ facts => [{ facts }]
  | .other _ facts => [{ facts }]

/-- What is said about the nodes of arguments. -/
def recordsArgs : List CaseExpr → List NodeRecord
  | [] => []
  | e :: es => e.records ++ recordsArgs es

end

end CaseExpr

/-! ## Resolving -/

namespace Case

/-- The entities of a case. -/
def registry (c : Case) : EntityRegistry := ⟨c.entities⟩

/-- A reference into an entity of the case. -/
def expansion (c : Case) (x : CaseExpansion) : Except CaseFault Expansion :=
  match Name.ofText x.name with
  | .ok name => .ok ⟨x.entity, name, c.registry⟩
  | .error e => .error (.badName e)

/-- The source of a name: the case's own, unless the name is an outer one. -/
def source (c : Case) (outer : Bool) : Option SourceMetadata := if outer then none else some c.table

/-- The type of a node. -/
def resolveType (c : Case) : CaseType → Except CaseFault ValueType
  | .optionSet => .ok .optionSet
  | .optionSetValue => .ok .optionSetValue
  | .view => .ok .view
  | .viewValue => .ok .viewValue
  | .record none => .ok (.record none)
  | .record (some x) => (c.expansion x).map fun x => .record (some x)
  | .other => .ok .other

/-- What a bare name stands for. -/
def resolveName (c : Case) : CaseName → Except CaseFault NameInfo
  | .localColumn path outer =>
    match ColumnPath.parse path with
    | .ok p => .ok (.localColumn p (c.source outer))
    | .error e => .error (.badPath path e)
  | .scopeRecord outer => .ok (.scopeRecord (c.source outer))
  | .entityExpansion x => (c.expansion x).map fun x => .entityExpansion x.name x
  | .other => .ok .other

/-- Resolves what may be absent. -/
def resolveOption {α β : Type} (f : α → Except CaseFault β) :
    Option α → Except CaseFault (Option β)
  | none => .ok none
  | some a => (f a).map some

/-- The function that a head names, if it is registered. -/
def callee? (functions : FunctionRegistry) (head : Name) : Option DelegableFunction :=
  functions.functions.get? head.text

/-- The facts about a node; its type is resolved before its name. -/
def resolveFacts (c : Case) (functions : FunctionRegistry) (r : CaseExpr.NodeRecord) :
    Except CaseFault NodeFacts := do
  let type? ← resolveOption c.resolveType r.facts.type?
  let name? ← resolveOption c.resolveName r.facts.name?
  return { rowScoped := r.facts.rowScoped
           isAsync := r.facts.isAsync
           isPure := !r.facts.impure
           exempted := r.facts.exempted
           lambdaScoped := r.facts.lambdaScoped
           blockScopedConstant := r.facts.blockScopedConstant
           type?, name?
           callee? := r.head?.bind (callee? functions) }

/-- The problem of a case; `base` may be delegated in every case. -/
def resolve (c : Case) (functions : FunctionRegistry) (base : Features) :
    Except CaseFault Problem := do
  let function ← (functions.get c.function).mapError fun _ => .unknownFunction c.function
  let facts ← c.expression.records.mapM (c.resolveFacts functions)
  return { function
           expression := c.expression.number 0
           facts := ⟨.ofList ((List.range facts.length).zip facts), base ∪ c.features⟩
           table := c.table
           operator := c.operator }

end Case

end Delegability
