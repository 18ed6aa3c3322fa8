/-
# `Delegability.Json.Document` — what could be read of a text

A reader of documents takes them from the front and reports the first fault it
meets; a fault of meaning early in the text counts before a fault of form later
on.  So a text that is not JSON still has a document: as far as it could be
read, with `broken` where reading stopped.  Nothing follows a `broken` part.

A part that nobody looks at may hold more than a part that is used: a number
too large for a number, half of a surrogate pair, or deeper nesting.  Such a
part is `unusable`.
-/
import Delegability.Json.Value

namespace Delegability.Json

/-- What could be read of a text. -/
inductive Document where
  | null
  | bool (b : Bool)
  | num (n : Number)
  | str (s : String)
  | arr (items : List Document)
  /-- Members in the order of the text; a key is missing if it is unusable or broken. -/
  | obj (members : List (Option String × Document))
  /-- Well formed, but fit only to be passed over. -/
  | unusable
  /-- Reading stopped here. -/
  | broken
deriving Inhabited

namespace Document

mutual

/-- Whether a part can be passed over: reading did not stop inside it. -/
def skippable : Document → Bool
  | .arr items => skippableItems items
  | .obj members => skippableMembers members
  | .broken => false
  | _ => true

/-- Whether all items can be passed over. -/
def skippableItems : List Document → Bool
  | [] => true
  | d :: ds => d.skippable && skippableItems ds

/-- Whether all members can be passed over. -/
def skippableMembers : List (Option String × Document) → Bool
  | [] => true
  | (_, d) :: ds => d.skippable && skippableMembers ds

end

mutual

/-- The value of a document, if all of it is usable. -/
def value? : Document → Option Value
  | .null => some .null
  | .bool b => some (.bool b)
  | .num n => some (.num n)
  | .str s => some (.str s)
  | .arr items => (valueItems? items).map .arr
  | .obj members => (valueMembers? members).map .object
  | .unusable => none
  | .broken => none

/-- The values of all items. -/
def valueItems? : List Document → Option (List Value)
  | [] => some []
  | d :: ds =>
    match d.value?, valueItems? ds with
    | some v, some vs => some (v :: vs)
    | _, _ => none

/-- The values of all members. -/
def valueMembers? : List (Option String × Document) → Option (List (String × Value))
  | [] => some []
  | (k, d) :: ds =>
    match k, d.value?, valueMembers? ds with
    | some k, some v, some vs => some ((k, v) :: vs)
    | _, _, _ => none

end

mutual

/-- How deep arrays and objects are nested. -/
def depth : Document → Nat
  | .arr items => depthItems items + 1
  | .obj members => depthMembers members + 1
  | _ => 0

/-- The depth of the deepest item. -/
def depthItems : List Document → Nat
  | [] => 0
  | d :: ds => max d.depth (depthItems ds)

/-- The depth of the deepest member. -/
def depthMembers : List (Option String × Document) → Nat
  | [] => 0
  | (_, d) :: ds => max d.depth (depthMembers ds)

end

/-- Whether all of a document is usable. -/
def usable (d : Document) : Bool := d.value?.isSome

mutual

/-- A value as a document. -/
def ofValue : Value → Document
  | .null => .null
  | .bool b => .bool b
  | .num n => .num n
  | .str s => .str s
  | .arr items => .arr (ofItems items)
  | .obj members => .obj (ofMembers members)

/-- Values as items. -/
def ofItems : List Value → List Document
  | [] => []
  | v :: vs => ofValue v :: ofItems vs

/-- Members of a value as members of a document. -/
def ofMembers : List (String × Value) → List (Option String × Document)
  | [] => []
  | (k, v) :: ms => (some k, ofValue v) :: ofMembers ms

end

end Document

end Delegability.Json
