/-
# `Delegability.Rules` — when a node can be delegated

Each kind of node has its rule.  A rule is a plain function: what it needs from
the nodes below comes to it as their `Reading`, that is, how a node is judged
under an operator and how it is judged as the left side of an access.  `judge`
puts the rules together by recursion on the formula.

* Nodes with effects and nodes that wait come first: `purity`, `readiness`.
* Where the value does not depend on the row nothing else is asked.
* A column must support the enclosing function and the operator above it.
* An operator must be known to the source before its operands are looked at.
* A call must be constant, and be one that the source can evaluate.
-/
import Delegability.Facts
import Delegability.Pass
import Delegability.Strategy

namespace Delegability

/-- What a formula is judged by. -/
structure Scope where
  /-- The function whose condition the formula is. -/
  function : DelegableFunction
  facts : FactTable
  facet : Facet

namespace Scope

/-- Rejects a node with the hint that names the enclosing function. -/
def rejectPlainly (s : Scope) (id : NodeId) (k : NodeKind) (status : Status) (context : String) :
    Check Verdict :=
  Check.reject ⟨status, id, k, .suggestRemoteExecution s.function.name, context⟩

/-! ## Effects and waiting -/

/-- A node with effects is rejected unless effects are allowed. -/
def purity (s : Scope) (id : NodeId) (k : NodeKind) : Check Verdict :=
  if !s.facts.isPure id && !s.facts.features.allowImpure then
    s.rejectPlainly id k .impureNode (Context.asyncOrImpure k (s.facts.isAsync id) false)
  else Check.accept

/-- So is a node that waits, unless waiting is allowed for its kind. -/
def readiness (s : Scope) (id : NodeId) (k : NodeKind) : Check Verdict :=
  Check.andThen (s.purity id k) <|
    if !s.facts.isAsync id then Check.accept
    else if s.facts.features.allowAsync && k.isAsyncDelegable then Check.accept
    else s.rejectPlainly id k .asyncPredicate (Context.asyncOrImpure k true true)

/-! ## Columns -/

/-- Rejects a node because of a column. -/
def rejectColumn (_ : Scope) (id : NodeId) (k : NodeKind) (column : String) : Check Verdict :=
  Check.reject ⟨.noSupportByColumn, id, k, .notSupportedByColumn column, Context.column column⟩

/-- A reference into an entity that is not known. -/
def rejectEntity (s : Scope) (id : NodeId) (k : NodeKind) (identity : String) :
    Check Verdict := do
  modify (·.note (.unknownEntity identity))
  s.rejectPlainly id k .other (Context.entityNotFound k true identity)

/-- The column supports the operator above it, if there is one. -/
def operatorRule (_ : Scope) (id : NodeId) (k : NodeKind) (f : Facet) (p : ColumnPath)
    (op : Option Strategy) : Check Verdict :=
  match op with
  | none => Check.accept
  | some op =>
    if op.isSupported f p then Check.accept
    else Check.reject ⟨.noSupportByColumn, id, k, .notSupportedByColumn p.dotted,
      Context.columnOperator p.dotted op.operator⟩

/-- The column supports what is required and the operator above it. -/
def supportRule (s : Scope) (id : NodeId) (k : NodeKind) (f : Facet) (p : ColumnPath)
    (required : CapabilitySet) (op : Option Strategy) : Check Verdict :=
  if f.supportsColumn p required then s.operatorRule id k f p op
  else s.rejectColumn id k p.dotted

/-- A bare name that depends on the row.  It is a violation to ask this of
another name. -/
def columnRule (s : Scope) (id : NodeId) (name : Name) (op : Option Strategy)
    (required : CapabilitySet) : Check Verdict :=
  if !s.facts.isRowScoped id then throw (.columnOutsideRow name.text)
  else
    match s.facts.name? id with
    | none => s.rejectPlainly id .firstName .other (Context.unresolvedName .firstName name.text)
    | some info =>
      match info.unknownEntity?, info.metadata? with
      | some identity, _ => s.rejectEntity id .firstName identity
      -- the value is supplied by an outer evaluation
      | none, none => Check.accept
      | none, some m =>
        s.supportRule id .firstName (m.facetFor required) (info.path name) required op

/-- A bare name. -/
def firstRule (s : Scope) (id : NodeId) (name : Name) (op : Option Strategy) : Check Verdict :=
  Check.andThen (s.readiness id .firstName) <|
    if s.facts.isRowScoped id then s.columnRule id name op s.function.requires
    else Check.accept

/-! ## Access -/

/-- How the left side of an access looks. -/
inductive Shape where
  /-- It starts at a name that is exempt and bound by the condition. -/
  | exempted
  /-- It may lead to a column. -/
  | resolvable
  /-- It leads nowhere. -/
  | unsupported
  /-- It starts at a call that was rejected. -/
  | rejected (why : Rejection)

/-- The left side is a bare name for a whole row of an outer evaluation. -/
def isOuterRecord (s : Scope) : Expr → Bool
  | .first id _ => s.facts.name? id = some (.scopeRecord none)
  | _ => false

/-- The column of an entity by either of its names. -/
def entityColumn (e : Entity) (right : Name) : Name :=
  match (e.displayNames.logicalFor? right.text).map Name.ofText with
  | some (.ok logical) => logical
  | _ => right

/-- An access whose left side may lead to a column. -/
def resolvedAccess (s : Scope) (id : NodeId) (left : Expr) (right : Name)
    (op : Option Strategy) : Check Verdict :=
  if s.isOuterRecord left then Check.accept
  else
    match (s.facts.type? left.id).bind ValueType.expansion? with
    | none =>
      match s.facts.columnPath? (.dotted id left right) with
      | none => s.rejectColumn id .dottedName (Expr.dotted id left right).text
      | some p => s.supportRule id .dottedName s.facet p s.function.requires op
    | some x =>
      match x.entity? with
      | none => s.rejectEntity id .dottedName x.identity
      | some e =>
        s.supportRule id .dottedName (e.source.facetFor s.function.requires)
          (ColumnPath.root.append (entityColumn e right)) s.function.requires op

/-- An access that depends on the row. -/
def accessRule (s : Scope) (id : NodeId) (left : Expr) (right : Name) (shape : Check Shape)
    (op : Option Strategy) : Check Verdict :=
  Check.andThen (s.purity id .dottedName) do
    match ← shape with
    | .exempted => do
      modify (·.mark id)
      Check.accept
    | .rejected r => return .rejected r
    | .unsupported => s.rejectPlainly id .dottedName .other (Context.kind .dottedName true)
    | .resolvable => s.resolvedAccess id left right op

/-- The access picks a value out of an option set or a view. -/
def isOptionAccess (s : Scope) (id left : NodeId) : Bool :=
  match s.facts.type? left, s.facts.type? id with
  | some .optionSet, some .optionSetValue => true
  | some .view, some .viewValue => true
  | _, _ => false

/-- An access. -/
def dottedRule (s : Scope) (id : NodeId) (left : Expr) (right : Name) (shape : Check Shape)
    (op : Option Strategy) : Check Verdict :=
  if s.facts.isRowScoped id then s.accessRule id left right shape op
  else if s.isOptionAccess id left.id then Check.accept
  else s.readiness id .dottedName

/-! ## What a node is to the nodes above it -/

/-- How a node is judged from above. -/
structure Reading where
  id : NodeId
  /-- Its verdict under an operator, if there is one. -/
  verdict : Option Strategy → Check Verdict
  /-- Its shape as the left side of an access. -/
  shape : Check Shape

/-! ## Calls -/

/-- What a source needs to match the start or the end of a text. -/
def matchCapability? : DelegableFunction → Option Capability
  | .startsWith => some .startsWith
  | .endsWith => some .endsWith
  | _ => none

/-- Whether the source can evaluate a call that depends on the row: only a match
of a column with a text that does not depend on the row. -/
def serverSide (s : Scope) (f : DelegableFunction) (args : List Reading) : Check Bool :=
  match matchCapability? f, args with
  | some c, [column, pattern] =>
    if !s.facet.allowsOnTable (.single c) then pure false
    else do
      match ← column.verdict (some (.stringMatch (.single c))) with
      | .rejected _ => return false
      | .delegable =>
        if s.facts.isRowScoped pattern.id then return false
        else return (← pattern.verdict none).isDelegable
  | _, _ => pure false

/-- Whether the node is constant, by its record or by a mark. -/
def isConstant (s : Scope) (p : Pass) (id : NodeId) : Bool :=
  s.facts.isBlockScopedConstant id || p.marks.contains id

/-- A call that depends on the row and may be evaluated by the source.  If an
argument was rejected on the way, that is the reason. -/
def rowCallRule (s : Scope) (id : NodeId) (args : List Reading) : Check Verdict :=
  match s.facts.callee? id with
  | none => s.rejectPlainly id .call .undelegatableFunction (Context.function none)
  | some f => do
    let before := (← get).rejections.length
    if ← s.serverSide f args then Check.accept
    else
      match (← get).rejections[before]? with
      | some r => return .rejected r
      | none => s.rejectPlainly id .call .undelegatableFunction (Context.function (some f.name))

/-- The rule of calls in general; `allowVarying` waives that the call be constant. -/
def genericCall (s : Scope) (id : NodeId) (args : List Reading) (allowVarying : Bool) :
    Check Verdict :=
  Check.andThen (s.readiness id .call) do
    if !s.facts.isRowScoped id then Check.accept
    else if !allowVarying && !s.isConstant (← get) id then
      s.rejectPlainly id .call .other (Context.notConstant .call)
    else s.rowCallRule id args

/-- A cast: the source must know casts, and what is cast is judged. -/
def castRule (s : Scope) (id : NodeId) (args : List Reading) : Check Verdict :=
  let name := DelegableFunction.asType.name
  if !s.facet.allowsOnTable (.single .asType) then
    Check.reject ⟨.other, id, .call, .notSupportedByService name, Context.castUnsupported name⟩
  else
    match args with
    | [] => s.rejectPlainly id .call .other (Context.castMissing name)
    | source :: _ => source.verdict none

/-- A call, by the rule of its function. -/
def callRule (s : Scope) (id : NodeId) (args : List Reading) : Check Verdict :=
  match s.facts.callee? id with
  | some .user => Check.accept
  | some .asType => s.castRule id args
  | _ => s.genericCall id args false

/-! ## Operators -/

/-- An operator that the source does not know. -/
def rejectOperator (_ : Scope) (id : NodeId) (k : NodeKind) (op : String) : Check Verdict :=
  Check.reject ⟨.other, id, k, .notSupportedByService op, Context.operatorUnsupported op⟩

/-- What the operands of an operator see above them. -/
def operandStrategies (op : BinaryOp) :
    Except Violation (Option Strategy × Option Strategy) :=
  if op.isLogical then .ok (none, none)
  else if op.isMembership then do
    let left ← Strategy.ofMembership op true
    let right ← Strategy.ofMembership op false
    return (some left, some right)
  else .ok (some (.binary op), some (.binary op))

/-- A binary operator that depends on the row. -/
def binaryRule (s : Scope) (id : NodeId) (op : BinaryOp) (left right : Reading) :
    Check Verdict :=
  Check.andThen (s.purity id .binaryOp) <|
    if !s.facet.allowsOnTable (.single op.capability) then s.rejectOperator id .binaryOp op.text
    else if op.isComparison && s.facts.isRowScoped left.id && s.facts.isRowScoped right.id then
      s.rejectPlainly id .binaryOp .other (Context.bothRowScoped op.text)
    else do
      let (onLeft, onRight) ← operandStrategies op
      Check.andThen (left.verdict onLeft) (right.verdict onRight)

/-- What the operand of an operator sees above it. -/
def operandStrategy : UnaryOp → Option Strategy
  | .not => none
  | .negate => some (.unary .negate)

/-- A unary operator that depends on the row. -/
def unaryRule (s : Scope) (id : NodeId) (op : UnaryOp) (operand : Reading) : Check Verdict :=
  Check.andThen (s.purity id .unaryOp) <|
    if !s.facet.allowsOnTable (.single op.capability) then s.rejectOperator id .unaryOp op.text
    else operand.verdict (operandStrategy op)

/-- Anything else that depends on the row. -/
def otherRule (s : Scope) (id : NodeId) : Check Verdict :=
  Check.andThen (s.purity id .other) <|
    s.rejectPlainly id .other .other (Context.kind .other true)

/-- Only what depends on the row is judged by its rule; all else must be ready. -/
def rowRule (s : Scope) (id : NodeId) (k : NodeKind) (rule : Check Verdict) : Check Verdict :=
  if s.facts.isRowScoped id then rule else s.readiness id k

/-! ## All together -/

mutual

/-- How a formula is judged from above. -/
def judge (s : Scope) : Expr → Reading
  | .literal id _ => ⟨id, fun _ => Check.accept, pure .unsupported⟩
  | .call id _ args =>
    let v := s.callRule id (s.judgeArgs args)
    { id := id
      verdict := fun _ => v
      shape := do
        match ← v with
        | .delegable => return .resolvable
        | .rejected r => return .rejected r }
  | .first id name =>
    { id := id
      verdict := s.firstRule id name
      shape :=
        pure (if s.facts.isExempted id && s.facts.isLambdaScoped id then .exempted
          else .resolvable) }
  | .dotted id left right =>
    let shape := (s.judge left).shape
    ⟨id, s.dottedRule id left right shape, shape⟩
  | .binary id op left right =>
    ⟨id, fun _ => s.rowRule id .binaryOp (s.binaryRule id op (s.judge left) (s.judge right)),
      pure .unsupported⟩
  | .unary id op operand =>
    ⟨id, fun _ => s.rowRule id .unaryOp (s.unaryRule id op (s.judge operand)), pure .unsupported⟩
  | .other id _ => ⟨id, fun _ => s.rowRule id .other (s.otherRule id), pure .unsupported⟩

/-- How arguments are judged from above. -/
def judgeArgs (s : Scope) : List Expr → List Reading
  | [] => []
  | e :: es => s.judge e :: s.judgeArgs es

end

/-- The verdict on a formula under an operator, if there is one. -/
def validateNode (s : Scope) (e : Expr) (op : Option Strategy) : Check Verdict :=
  (s.judge e).verdict op

end Scope

end Delegability
