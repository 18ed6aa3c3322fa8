/-
# `Delegability.ColumnPath` — columns by the way to them

A column is named by the names on the way to it, which is longer than one where
columns hold records (`Address.City`).  The empty path is the row itself.
Paths are written with dots between the names; since a name may hold a dot
itself, the written form does not always lead back.
-/
import Delegability.Name

namespace Delegability

/-- The names on the way to a column. -/
structure ColumnPath where
  /-- The names, outermost first. -/
  segments : List Name
deriving DecidableEq

namespace ColumnPath

/-- The row itself. -/
def root : ColumnPath := ⟨[]⟩

instance : Inhabited ColumnPath := ⟨root⟩

/-- The path of a single name. -/
def ofName (n : Name) : ColumnPath := ⟨[n]⟩

/-- One step further. -/
def append (p : ColumnPath) (n : Name) : ColumnPath := ⟨p.segments ++ [n]⟩

/-- Whether the path is that of the row itself. -/
def isRoot (p : ColumnPath) : Bool := p.segments.isEmpty

/-- The number of names. -/
def length (p : ColumnPath) : Nat := p.segments.length

/-- The last name. -/
def name? (p : ColumnPath) : Option Name := p.segments.getLast?

/-! ## Order: name by name -/

instance : Ord ColumnPath := ⟨fun a b => compare a.segments b.segments⟩

instance : Std.TransOrd ColumnPath where
  eq_swap {a b} := @Std.OrientedCmp.eq_swap (List Name) compare _ a.segments b.segments
  isLE_trans {a b c} :=
    @Std.TransCmp.isLE_trans (List Name) compare _ a.segments b.segments c.segments

instance : Std.LawfulEqOrd ColumnPath where
  compare_self {a} := @Std.ReflCmp.compare_self (List Name) compare _ a.segments
  eq_of_compare {a b} h := by
    cases a; cases b
    cases @Std.LawfulEqCmp.eq_of_compare (List Name) compare _ _ _ h
    rfl

/-! ## The dotted form -/

/-- The dotted form of a path. -/
def dotted (p : ColumnPath) : String :=
  ".".intercalate (p.segments.map Name.text)

/-- The path of a dotted form; the first piece that is no name is the fault. -/
def parse (s : String) : Except NameError ColumnPath :=
  ((s.toList.splitOn '.').mapM fun p => Name.ofText (String.ofList p)).map ColumnPath.mk

instance : ToString ColumnPath := ⟨dotted⟩

end ColumnPath

end Delegability
