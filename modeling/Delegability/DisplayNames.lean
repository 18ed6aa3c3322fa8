/-
# `Delegability.DisplayNames` — logical names and the names people see

A column has a logical name and may have a display name; a display name belongs
to one column.  Both directions are kept, so that either name leads to the
other.
-/
import Delegability.Dict

namespace Delegability

/-- The display names of an entity's columns. -/
structure DisplayNames where
  byLogical : Dict String String := ∅
  byDisplay : Dict String String := ∅
deriving DecidableEq, Inhabited

/-- A display name that two columns claim. -/
structure AmbiguousDisplayName where
  display : String
  /-- The column that has it. -/
  first : String
  /-- The column that asks for it. -/
  second : String
deriving DecidableEq

/-- The message for a display name that two columns claim. -/
def AmbiguousDisplayName.message (e : AmbiguousDisplayName) : String :=
  "Display name '" ++ e.display ++ "' maps to both '" ++ e.first ++ "' and '" ++ e.second ++ "'"

namespace DisplayNames

/-- The logical name of a display name. -/
def logicalFor? (m : DisplayNames) (display : String) : Option String :=
  m.byDisplay.get? display

/-- The display name of a logical name. -/
def displayFor? (m : DisplayNames) (logical : String) : Option String :=
  m.byLogical.get? logical

/-- Binds `logical` to `display`, whatever either was bound to. -/
def bind (m : DisplayNames) (logical display : String) : DisplayNames where
  byLogical := m.byLogical.insert logical display
  byDisplay :=
    let rest :=
      match m.byLogical.get? logical with
      | some old => m.byDisplay.erase old
      | none => m.byDisplay
    rest.insert display logical

/-- Gives a column a display name in place of the one it had, unless another
column has it.  Comes with the mapping that there is afterwards, also when it
was refused. -/
def insert (m : DisplayNames) (logical display : String) :
    Except AmbiguousDisplayName Unit × DisplayNames :=
  match m.byDisplay.get? display with
  | some first =>
    if first = logical then (.ok (), m.bind logical display)
    else (.error ⟨display, first, logical⟩, m)
  | none => (.ok (), m.bind logical display)

/-- The mapping with one more pair of logical and display name. -/
def extend (m : DisplayNames) (pair : String × String) :
    Except AmbiguousDisplayName DisplayNames :=
  match m.insert pair.1 pair.2 with
  | (.ok (), after) => .ok after
  | (.error e, _) => .error e

/-- The mapping of a list of pairs. -/
def ofPairs (pairs : List (String × String)) : Except AmbiguousDisplayName DisplayNames :=
  pairs.foldlM extend {}

/-- The mapping of a dictionary from logical to display names. -/
def ofDict (d : Dict String String) : Except AmbiguousDisplayName DisplayNames :=
  ofPairs d.entries

/-- The number of columns with a display name. -/
def size (m : DisplayNames) : Nat := m.byLogical.size

/-- Whether no column has a display name. -/
def isEmpty (m : DisplayNames) : Bool := m.byLogical.isEmpty

end DisplayNames

end Delegability
