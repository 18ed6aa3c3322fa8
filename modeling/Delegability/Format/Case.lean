/-
# `Delegability.Format.Case` — cases as JSON

A case is one document.  Formulas, types and names are tagged objects; facts are
records in which every field may be left out.  Everything inside a formula is
read after the formula as a whole was found usable, so all choices below its
root are `buffered`.
-/
import Delegability.Case
import Delegability.Format.Features

namespace Delegability

open Json

/-! ## Types -/

/-- A reference, as far as it is read. -/
structure CaseExpansion.Draft where
  entity : Option String := none
  name : Option String := none

/-- The fields of a reference. -/
def CaseExpansion.slots : List (Slot Refusal CaseExpansion.Draft) :=
  [slot "entity" (·.entity) (fun a s => { s with entity := some a }) decodeText,
   slot "name" (·.name) (fun a s => { s with name := some a }) decodeText]

/-- A reference into an entity. -/
def CaseExpansion.decode : Reads CaseExpansion :=
  decodeRecord CaseExpansion.slots {} fun listed s => do
    let entity ← required listed "entity" s.entity
    let name ← required listed "name" s.name
    return ⟨entity, name⟩

/-- The kinds of types; a record has more to it, so its rest is decoded. -/
def CaseType.kinds : List (String × Option CaseType) :=
  [("option_set", some .optionSet), ("option_set_value", some .optionSetValue),
   ("view", some .view), ("view_value", some .viewValue), ("record", none),
   ("other", some .other)]

/-- A record type, as far as it is read. -/
structure CaseType.Draft where
  expand : Option (Option CaseExpansion) := none

/-- The fields of a record type. -/
def CaseType.recordSlots : List (Slot Refusal CaseType.Draft) :=
  [slot "expand" (·.expand) (fun a s => { s with expand := some a })
     (decodeNullable CaseExpansion.decode)]

/-- The type of a node. -/
def CaseType.decode (d : Document) : Except DocumentFault CaseType := do
  match ← decodeTagged .buffered CaseType.kinds d with
  | (some t, rest) => do
    decodeNothing rest
    return t
  | (none, rest) =>
    decodeRecord CaseType.recordSlots {} (fun _ s => .ok (.record s.expand.join)) rest

/-! ## Names -/

/-- The kinds of names. -/
inductive CaseName.Kind where
  | localColumn | scopeRecord | entityExpansion | other
deriving DecidableEq

/-- The kinds of names. -/
def CaseName.kinds : List (String × CaseName.Kind) :=
  [("local_column", .localColumn), ("scope_record", .scopeRecord),
   ("entity_expansion", .entityExpansion), ("other", .other)]

/-- A name, as far as it is read. -/
structure CaseName.Draft where
  path : Option String := none
  outer : Option Bool := none
  name : Option String := none
  entity : Option String := none

/-- The field for the path of a column. -/
def CaseName.pathSlot : Slot Refusal CaseName.Draft :=
  slot "path" (·.path) (fun a s => { s with path := some a }) decodeText

/-- The field for names of an outer evaluation. -/
def CaseName.outerSlot : Slot Refusal CaseName.Draft :=
  slot "outer" (·.outer) (fun a s => { s with outer := some a }) decodeBool

/-- The field for the column of a reference. -/
def CaseName.nameSlot : Slot Refusal CaseName.Draft :=
  slot "name" (·.name) (fun a s => { s with name := some a }) decodeText

/-- The field for the entity of a reference. -/
def CaseName.entitySlot : Slot Refusal CaseName.Draft :=
  slot "entity" (·.entity) (fun a s => { s with entity := some a }) decodeText

/-- What a bare name stands for. -/
def CaseName.decode (d : Document) : Except DocumentFault CaseName := do
  match ← decodeTagged .buffered CaseName.kinds d with
  | (.localColumn, rest) =>
    decodeRecord [pathSlot, outerSlot] {} (fun listed s => do
      let path ← required listed "path" s.path
      return .localColumn path (s.outer.getD false)) rest
  | (.scopeRecord, rest) =>
    decodeRecord [outerSlot] {} (fun _ s => .ok (.scopeRecord (s.outer.getD false))) rest
  | (.entityExpansion, rest) =>
    decodeRecord [nameSlot, entitySlot] {} (fun listed s => do
      let name ← required listed "name" s.name
      let entity ← required listed "entity" s.entity
      return .entityExpansion ⟨entity, name⟩) rest
  | (.other, rest) => do
    decodeNothing rest
    return .other

/-! ## Facts -/

/-- Facts, as far as they are read. -/
structure CaseFacts.Draft where
  rowScoped : Option Bool := none
  isAsync : Option Bool := none
  impure : Option Bool := none
  exempted : Option Bool := none
  lambdaScoped : Option Bool := none
  blockScopedConstant : Option Bool := none
  type? : Option (Option CaseType) := none
  name? : Option (Option CaseName) := none

/-- The fields of facts. -/
def CaseFacts.slots : List (Slot Refusal CaseFacts.Draft) :=
  [slot "row_scoped" (·.rowScoped) (fun a s => { s with rowScoped := some a }) decodeBool,
   slot "async" (·.isAsync) (fun a s => { s with isAsync := some a }) decodeBool,
   slot "impure" (·.impure) (fun a s => { s with impure := some a }) decodeBool,
   slot "exempted" (·.exempted) (fun a s => { s with exempted := some a }) decodeBool,
   slot "lambda_scoped" (·.lambdaScoped) (fun a s => { s with lambdaScoped := some a })
     decodeBool,
   slot "block_scoped_constant" (·.blockScopedConstant)
     (fun a s => { s with blockScopedConstant := some a }) decodeBool,
   slot "type" (·.type?) (fun a s => { s with type? := some a })
     (decodeNullable CaseType.decode),
   slot "name" (·.name?) (fun a s => { s with name? := some a })
     (decodeNullable CaseName.decode)]

/-- The facts about a node; a node has no effects and does not wait unless it
is said to. -/
def CaseFacts.decode : Reads CaseFacts :=
  decodeRecord CaseFacts.slots {} fun _ s => .ok
    { rowScoped := s.rowScoped.getD false
      isAsync := s.isAsync.getD false
      impure := s.impure.getD false
      exempted := s.exempted.getD false
      lambdaScoped := s.lambdaScoped.getD false
      blockScopedConstant := s.blockScopedConstant.getD false
      type? := s.type?.join
      name? := s.name?.join }

/-! ## Formulas -/

namespace CaseExpr

/-- The kinds of formulas. -/
inductive Kind where
  | first | dotted | call | binary | unary | literal | other
deriving DecidableEq

/-- The kinds of formulas, by name. -/
def kinds : List (String × Kind) :=
  [("first_name", .first), ("dotted", .dotted), ("call", .call), ("binary", .binary),
   ("unary", .unary), ("literal", .literal), ("other", .other)]

/-- A formula, as far as it is read. -/
structure Draft where
  /-- Its name, head or description. -/
  text : Option String := none
  /-- Its left or only operand. -/
  left : Option CaseExpr := none
  /-- Its right operand. -/
  right : Option CaseExpr := none
  args : Option (List CaseExpr) := none
  binaryOp : Option BinaryOp := none
  unaryOp : Option UnaryOp := none
  value : Option Value := none
  facts : Option CaseFacts := none

/-- The facts that may be left out. -/
def Draft.nodeFacts (d : Draft) : CaseFacts := d.facts.getD {}

/-- A field for a text. -/
def textSlot (name : String) : Slot Refusal Draft :=
  slot name (·.text) (fun a s => { s with text := some a }) decodeText

/-- The field for facts. -/
def factsSlot : Slot Refusal Draft :=
  slot "facts" (·.facts) (fun a s => { s with facts := some a }) CaseFacts.decode

/-- A field for the left or only operand. -/
def leftSlot (name : String) (operand : Reads CaseExpr) : Slot Refusal Draft :=
  slot name (·.left) (fun a s => { s with left := some a }) operand

/-- A field for the right operand. -/
def rightSlot (name : String) (operand : Reads CaseExpr) : Slot Refusal Draft :=
  slot name (·.right) (fun a s => { s with right := some a }) operand

/-- The field for arguments. -/
def argsSlot (operand : Reads CaseExpr) : Slot Refusal Draft :=
  slot "args" (·.args) (fun a s => { s with args := some a }) (decodeList operand)

/-- The field for an operator with two operands. -/
def binaryOpSlot : Slot Refusal Draft :=
  slot "op" (·.binaryOp) (fun a s => { s with binaryOp := some a })
    (decodeName .buffered BinaryOp.named)

/-- The field for an operator with one operand. -/
def unaryOpSlot : Slot Refusal Draft :=
  slot "op" (·.unaryOp) (fun a s => { s with unaryOp := some a }) (decodeName .buffered UnaryOp.named)

/-- The field for the value of a literal. -/
def valueSlot : Slot Refusal Draft :=
  slot "value" (·.value) (fun a s => { s with value := some a }) decodeValue

/-- The fields of a kind, in the order of declaration. -/
def slots (operand : Reads CaseExpr) : Kind → List (Slot Refusal Draft)
  | .first => [textSlot "name", factsSlot]
  | .dotted => [leftSlot "left" operand, textSlot "right", factsSlot]
  | .call => [textSlot "head", argsSlot operand, factsSlot]
  | .binary => [binaryOpSlot, leftSlot "left" operand, rightSlot "right" operand, factsSlot]
  | .unary => [unaryOpSlot, leftSlot "operand" operand, factsSlot]
  | .literal => [valueSlot, factsSlot]
  | .other => [textSlot "description", factsSlot]

/-- A formula of a kind, once all its fields are read. -/
def ofDraft (k : Kind) (listed : Bool) (d : Draft) : Except DocumentFault CaseExpr :=
  match k with
  | .first => do return .first (← required listed "name" d.text) d.nodeFacts
  | .dotted => do
    let left ← required listed "left" d.left
    return .dotted left (← required listed "right" d.text) d.nodeFacts
  | .call => do return .call (← required listed "head" d.text) (d.args.getD []) d.nodeFacts
  | .binary => do
    let op ← required listed "op" d.binaryOp
    let left ← required listed "left" d.left
    return .binary op left (← required listed "right" d.right) d.nodeFacts
  | .unary => do
    let op ← required listed "op" d.unaryOp
    return .unary op (← required listed "operand" d.left) d.nodeFacts
  | .literal => do return .literal (← required listed "value" d.value) d.nodeFacts
  | .other => do return .other (← required listed "description" d.text) d.nodeFacts

/-- A formula of at most so many levels. -/
def decodeWithin : Nat → Supply → Document → Except DocumentFault CaseExpr
  | 0, _, _ => .error .form
  | levels + 1, supply, d => do
    let (kind, rest) ← decodeTagged supply kinds d
    decodeRecord (slots (decodeWithin levels .buffered) kind) {} (ofDraft kind) rest

/-- A formula.  It has at most as many levels as the document that holds it. -/
def decode (d : Document) : Except DocumentFault CaseExpr :=
  decodeWithin (d.depth + 1) .streamed d

end CaseExpr

/-! ## Cases -/

namespace Case

/-- A case, as far as it is read. -/
structure Draft where
  function : Option String := none
  features : Option Features := none
  table : Option SourceMetadata := none
  entities : Option (Dict String Entity) := none
  operator : Option (Option BinaryOp) := none
  expression : Option CaseExpr := none

/-- The fields of a case. -/
def slots : List (Slot Refusal Draft) :=
  [slot "function" (·.function) (fun a s => { s with function := some a }) decodeText,
   slot "features" (·.features) (fun a s => { s with features := some a }) Features.decode,
   slot "table" (·.table) (fun a s => { s with table := some a }) SourceMetadata.decode,
   slot "entities" (·.entities) (fun a s => { s with entities := some a })
     (decodeDict Entity.decode),
   slot "operator" (·.operator) (fun a s => { s with operator := some a })
     (decodeNullable (decodeName .streamed BinaryOp.named)),
   slot "expression" (·.expression) (fun a s => { s with expression := some a })
     CaseExpr.decode]

/-- A case. -/
def decode : Reads Case :=
  decodeRecord slots {} fun listed s => do
    let function ← required listed "function" s.function
    let expression ← required listed "expression" s.expression
    return { function, expression, features := s.features.getD {}, table := s.table.getD {},
             entities := s.entities.getD ∅, operator := s.operator.join }

/-- The case of a text. -/
def parse (text : String) : Except DocumentFault Case := Json.decode decode text

end Case

end Delegability
