/-
# `Delegability.Metadata` — what a data source supports

A source describes itself twice, once for filtering and once for sorting.  Each
of these facets says which operators the source evaluates at all and, column by
column, which functions may use the column and under which operators it may
stand.  A column without an entry supports nothing.
-/
import Delegability.Capability
import Delegability.ColumnPath
import Delegability.Dict

namespace Delegability

/-- What a column supports. -/
structure ColumnSupport where
  /-- The functions that may use the column, by what they require. -/
  capabilities : CapabilitySet := .none
  /-- The operators the column may stand under. -/
  operators : CapabilitySet := .none
deriving DecidableEq, Inhabited

/-- What a source supports for one purpose. -/
structure Facet where
  /-- The operators the source evaluates at all. -/
  table : CapabilitySet := .none
  columns : Dict ColumnPath ColumnSupport := ∅
deriving DecidableEq, Inhabited

namespace Facet

/-- Describes a column, in place of an earlier description. -/
def withColumn (f : Facet) (p : ColumnPath) (c : ColumnSupport) : Facet :=
  { f with columns := f.columns.insert p c }

/-- The description of a column. -/
def column? (f : Facet) (p : ColumnPath) : Option ColumnSupport :=
  f.columns.get? p

/-- Whether functions that require `c` may use the column; one capability of
several is enough. -/
def supportsColumn (f : Facet) (p : ColumnPath) (c : CapabilitySet) : Bool :=
  (f.column? p).any fun s => s.capabilities.meets c

/-- Whether the column may stand under an operator that requires `op`. -/
def allowsOnColumn (f : Facet) (p : ColumnPath) (op : CapabilitySet) : Bool :=
  (f.column? p).any fun s => s.operators.hasAll op

/-- Whether the source evaluates an operator that requires `op` at all. -/
def allowsOnTable (f : Facet) (op : CapabilitySet) : Bool :=
  f.table.hasAll op

end Facet

/-- A source's description of itself. -/
structure SourceMetadata where
  filter : Facet := {}
  sort : Facet := {}
deriving DecidableEq, Inhabited

/-- The facet that decides about `required`: that of sorting if sorting is
among it, and that of filtering otherwise. -/
def SourceMetadata.facetFor (m : SourceMetadata) (required : CapabilitySet) : Facet :=
  if required.requiresSort then m.sort else m.filter

end Delegability
