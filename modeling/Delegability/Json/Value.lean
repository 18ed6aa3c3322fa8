/-
# `Delegability.Json.Value` — JSON values and their text

The values that are written: reports, metadata and the literals of an
expression.  Members stand in the order in which they are written; a value that
was read has them in the order of their keys, each key once (`Value.object`).
The text is compact: no blanks anywhere.
-/
import Delegability.Dict
import Delegability.Json.Number
import Delegability.Text.Escape

namespace Delegability.Json

/-- A JSON value. -/
inductive Value where
  | null
  | bool (b : Bool)
  | num (n : Number)
  | str (s : String)
  | arr (items : List Value)
  | obj (members : List (String × Value))
deriving Inhabited

namespace Value

/-- The object of a list of members, in the order of their keys; of two members
with one key the later counts. -/
def object (members : List (String × Value)) : Value :=
  .obj (Dict.ofList members).entries

/-- A whole number. -/
def ofNat (n : Nat) : Value := .num (.int n)

/-- A list of texts. -/
def texts (ss : List String) : Value := .arr (ss.map .str)

/-- A value that may be absent is written as `null`. -/
def ofOption {α : Type} (f : α → Value) : Option α → Value
  | none => .null
  | some a => f a

mutual

/-- The text of a value. -/
def render : Value → List Char
  | .null => ['n', 'u', 'l', 'l']
  | .bool true => ['t', 'r', 'u', 'e']
  | .bool false => ['f', 'a', 'l', 's', 'e']
  | .num n => n.text.toList
  | .str s => (Text.documentStyle.quote s).toList
  | .arr items => '[' :: (renderItems items ++ [']'])
  | .obj members => '{' :: (renderMembers members ++ ['}'])

/-- The items of an array, with commas between them. -/
def renderItems : List Value → List Char
  | [] => []
  | [v] => v.render
  | v :: w :: vs => v.render ++ ',' :: renderItems (w :: vs)

/-- The members of an object, with commas between them. -/
def renderMembers : List (String × Value) → List Char
  | [] => []
  | [(k, v)] => (Text.documentStyle.quote k).toList ++ ':' :: v.render
  | (k, v) :: m :: ms =>
    (Text.documentStyle.quote k).toList ++ ':' :: (v.render ++ ',' :: renderMembers (m :: ms))

end

/-- The text of a value. -/
def text (v : Value) : String := String.ofList v.render

end Value

end Delegability.Json
