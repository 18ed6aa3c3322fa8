/-
# `Delegability.Facts` — what is known about the nodes of a formula

Whoever bound the formula has recorded, node by node, whether the node depends
on the row, whether it waits or has effects, its type, and what its name or its
call resolved to.  Nothing is known about a node without a record: it is then
not taken to be pure.
-/
import Delegability.DelegableFunction
import Delegability.Entity
import Delegability.Expr

namespace Delegability

/-- What may be delegated although it would not be by default. -/
structure Features where
  allowImpure : Bool := false
  /-- Names and calls that wait for a value. -/
  allowAsync : Bool := false
deriving DecidableEq, Inhabited

namespace Features

/-- Allows what either allows. -/
def union (a b : Features) : Features :=
  ⟨a.allowImpure || b.allowImpure, a.allowAsync || b.allowAsync⟩

instance : Union Features := ⟨union⟩

/-- Whether `a` allows all that `b` allows. -/
def includes (a b : Features) : Bool :=
  (!b.allowImpure || a.allowImpure) && (!b.allowAsync || a.allowAsync)

end Features

/-- A reference into another entity. -/
structure Expansion where
  identity : String
  name : Name
  /-- The entities of the source that holds the column. -/
  registry : EntityRegistry
deriving DecidableEq

namespace Expansion

/-- The entity, if it is known. -/
def entity? (x : Expansion) : Option Entity := x.registry.find? x.identity

/-- The reference in one line. -/
def describe (x : Expansion) : String :=
  r"ExpandInfo { identity: " ++ Text.quoted x.identity ++ ", name: DName(" ++
    Text.quoted x.name.text ++ r"), .. }"

end Expansion

/-- The type of a node, as far as it matters. -/
inductive ValueType where
  | optionSet | optionSetValue | view | viewValue
  | record (expansion : Option Expansion)
  | other
deriving DecidableEq

namespace ValueType

/-- The entity a value of the type refers to. -/
def expansion? : ValueType → Option Expansion
  | .record x => x
  | _ => none

/-- The type's name. -/
def text : ValueType → String
  | .optionSet => "OptionSet"
  | .optionSetValue => "OptionSetValue"
  | .view => "View"
  | .viewValue => "ViewValue"
  | .record _ => "Record"
  | .other => "Other"

end ValueType

/-- What a bare name stands for. -/
inductive NameInfo where
  /-- A column of a row; of the row of an outer evaluation if it has no source. -/
  | localColumn (path : ColumnPath) (source : Option SourceMetadata)
  /-- A whole row; of an outer evaluation if it has no source. -/
  | scopeRecord (source : Option SourceMetadata)
  | entityExpansion (name : Name) (expansion : Expansion)
  | other
deriving DecidableEq

namespace NameInfo

/-- The description of what the name stands for; there is none if an outer
evaluation supplies the value. -/
def metadata? : NameInfo → Option SourceMetadata
  | .localColumn _ s => s
  | .scopeRecord s => s
  | .entityExpansion _ x => x.entity?.map Entity.source
  | .other => none

/-- The column that a bare name with this meaning leads to.  A name for the whole
row adds nothing to the path. -/
def path (name : Name) : NameInfo → ColumnPath
  | .localColumn path _ => path
  | .scopeRecord _ => .root
  | .entityExpansion name _ => .ofName name
  | .other => .ofName name

/-- The identity of the entity that the name refers to, if it is not known. -/
def unknownEntity? : NameInfo → Option String
  | .entityExpansion _ x => if x.entity?.isSome then none else some x.identity
  | _ => none

/-- The name of the case. -/
def text : NameInfo → String
  | .localColumn .. => "local_column"
  | .scopeRecord .. => "scope_record"
  | .entityExpansion .. => "entity_expansion"
  | .other => "other"

end NameInfo

/-- What is known about a node. -/
structure NodeFacts where
  rowScoped : Bool := false
  isAsync : Bool := false
  isPure : Bool := true
  exempted : Bool := false
  /-- It is bound by the condition itself. -/
  lambdaScoped : Bool := false
  /-- It has one value throughout the query. -/
  blockScopedConstant : Bool := false
  type? : Option ValueType := none
  name? : Option NameInfo := none
  callee? : Option DelegableFunction := none
deriving DecidableEq, Inhabited

/-- What is known about the nodes of a formula, and what may be delegated. -/
structure FactTable where
  facts : Dict NodeId NodeFacts := ∅
  features : Features := {}
deriving DecidableEq, Inhabited

namespace FactTable

/-- The record of a node. -/
def facts? (t : FactTable) (id : NodeId) : Option NodeFacts := t.facts.get? id

/-- Records facts about a node, in place of earlier ones. -/
def insert (t : FactTable) (id : NodeId) (f : NodeFacts) : FactTable :=
  { t with facts := t.facts.insert id f }

/-- Forgets a node. -/
def erase (t : FactTable) (id : NodeId) : FactTable :=
  { t with facts := t.facts.erase id }

/-- Whether the node is known to have a property. -/
def known (t : FactTable) (id : NodeId) (p : NodeFacts → Bool) : Bool :=
  (t.facts? id).any p

/-- The node is known to depend on the row. -/
def isRowScoped (t : FactTable) (id : NodeId) : Bool := t.known id (·.rowScoped)

/-- The node is known to wait for its value. -/
def isAsync (t : FactTable) (id : NodeId) : Bool := t.known id (·.isAsync)

/-- The node is known to have no effects. -/
def isPure (t : FactTable) (id : NodeId) : Bool := t.known id (·.isPure)

/-- The node is known to be exempt. -/
def isExempted (t : FactTable) (id : NodeId) : Bool := t.known id (·.exempted)

/-- The node is known to be bound by the condition. -/
def isLambdaScoped (t : FactTable) (id : NodeId) : Bool := t.known id (·.lambdaScoped)

/-- The node is known to be constant. -/
def isBlockScopedConstant (t : FactTable) (id : NodeId) : Bool :=
  t.known id (·.blockScopedConstant)

/-- The type of a node. -/
def type? (t : FactTable) (id : NodeId) : Option ValueType := (t.facts? id).bind (·.type?)

/-- What the name of a node stands for. -/
def name? (t : FactTable) (id : NodeId) : Option NameInfo := (t.facts? id).bind (·.name?)

/-- The function a node calls. -/
def callee? (t : FactTable) (id : NodeId) : Option DelegableFunction :=
  (t.facts? id).bind (·.callee?)

/-- The column that a bare name or a chain of names leads to. -/
def columnPath? (t : FactTable) : Expr → Option ColumnPath
  | .first id name => (t.name? id).map (·.path name)
  | .dotted _ left right => (t.columnPath? left).map (·.append right)
  | _ => none

end FactTable

end Delegability
