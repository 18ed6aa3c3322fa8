/-
# `Delegability.Format.Metadata` — metadata as JSON

Sources and entities are described by documents, and described back as values.
Columns are keyed by the dotted form of their path; where two paths have one
dotted form the greater path is the one that is written.  Reading goes the other
way, so that a path is always its dotted form cut at the dots.
-/
import Delegability.Entity
import Delegability.Json.Decode

namespace Delegability

open Json

/-- Why a well-formed part of a document is refused. -/
inductive Refusal where
  /-- Not the name of a column. -/
  | name (e : NameError)
  /-- Not the name of a capability. -/
  | capability (name : String)
  /-- Display names that contradict each other. -/
  | displayName (e : AmbiguousDisplayName)
deriving DecidableEq

/-- The message of a refusal. -/
def Refusal.message : Refusal → String
  | .name e => e.message
  | .capability n => "unknown delegation capability '" ++ n ++ "'"
  | .displayName e => e.message

/-- What is wrong with a document of this program. -/
abbrev DocumentFault := Fault Refusal

/-- The message of a fault. -/
def DocumentFault.text (f : DocumentFault) : String := f.message Refusal.message

/-- A decoder of this program. -/
abbrev Reads (α : Type) := Decoder Refusal α

/-! ## Names and capabilities -/

/-- A name. -/
def Name.decode (d : Document) : Except DocumentFault Name :=
  match (decodeText d : Except DocumentFault String) with
  | .error e => .error e
  | .ok s => (Name.ofText s).mapError fun e => .refused (.name e)

/-- A path as the list of its names. -/
def ColumnPath.decode (d : Document) : Except DocumentFault ColumnPath :=
  (decodeList Name.decode d).map ColumnPath.mk

/-- A set of capabilities as the list of their names. -/
def CapabilitySet.decode (d : Document) : Except DocumentFault CapabilitySet :=
  match (decodeList decodeText d : Except DocumentFault (List String)) with
  | .error e => .error e
  | .ok ns => (CapabilitySet.ofNames ns).mapError fun n => .refused (.capability n)

/-- A set of capabilities as the list of their names. -/
def CapabilitySet.value (s : CapabilitySet) : Value := .texts s.names

/-! ## Columns and facets -/

/-- A column's support, as far as it is read. -/
structure ColumnSupport.Draft where
  capabilities : Option CapabilitySet := none
  operators : Option CapabilitySet := none

/-- The fields of a column's support. -/
def ColumnSupport.slots : List (Slot Refusal ColumnSupport.Draft) :=
  [slot "capabilities" (·.capabilities) (fun a s => { s with capabilities := some a })
     CapabilitySet.decode,
   slot "operators" (·.operators) (fun a s => { s with operators := some a })
     CapabilitySet.decode]

/-- A column's support. -/
def ColumnSupport.decode : Reads ColumnSupport :=
  decodeRecord ColumnSupport.slots {} fun _ s =>
    .ok ⟨s.capabilities.getD .none, s.operators.getD .none⟩

/-- A column's support. -/
def ColumnSupport.value (c : ColumnSupport) : Value :=
  .obj [("capabilities", c.capabilities.value), ("operators", c.operators.value)]

/-- Columns by path, from columns by dotted form. -/
def Facet.columnsOfDotted (d : Dict String ColumnSupport) :
    Except DocumentFault (Dict ColumnPath ColumnSupport) :=
  match d.entries.mapM fun e => (ColumnPath.parse e.1).map (·, e.2) with
  | .ok es => .ok (.ofList es)
  | .error e => .error (.refused (.name e))

/-- Columns by dotted form, from columns by path. -/
def Facet.dottedColumns (d : Dict ColumnPath ColumnSupport) : Dict String ColumnSupport :=
  .ofList (d.entries.map fun e => (e.1.dotted, e.2))

/-- Columns: first the whole object, then the keys in their order. -/
def Facet.decodeColumns (d : Document) : Except DocumentFault (Dict ColumnPath ColumnSupport) :=
  match decodeDict ColumnSupport.decode d with
  | .ok cs => columnsOfDotted cs
  | .error e => .error e

/-- A facet, as far as it is read. -/
structure Facet.Draft where
  table : Option CapabilitySet := none
  columns : Option (Dict ColumnPath ColumnSupport) := none

/-- The fields of a facet. -/
def Facet.slots : List (Slot Refusal Facet.Draft) :=
  [slot "table_capabilities" (·.table) (fun a s => { s with table := some a })
     CapabilitySet.decode,
   slot "columns" (·.columns) (fun a s => { s with columns := some a }) Facet.decodeColumns]

/-- A facet. -/
def Facet.decode : Reads Facet :=
  decodeRecord Facet.slots {} fun _ s => .ok ⟨s.table.getD .none, s.columns.getD ∅⟩

/-- A facet. -/
def Facet.value (f : Facet) : Value :=
  .obj [("columns", .obj ((dottedColumns f.columns).entries.map fun e => (e.1, e.2.value))),
    ("table_capabilities", f.table.value)]

/-! ## Sources -/

/-- A source's description, as far as it is read. -/
structure SourceMetadata.Draft where
  filter : Option Facet := none
  sort : Option Facet := none

/-- The fields of a source's description. -/
def SourceMetadata.slots : List (Slot Refusal SourceMetadata.Draft) :=
  [slot "filter" (·.filter) (fun a s => { s with filter := some a }) Facet.decode,
   slot "sort" (·.sort) (fun a s => { s with sort := some a }) Facet.decode]

/-- A source's description of itself. -/
def SourceMetadata.decode : Reads SourceMetadata :=
  decodeRecord SourceMetadata.slots {} fun _ s => .ok ⟨s.filter.getD {}, s.sort.getD {}⟩

/-- A source's description of itself. -/
def SourceMetadata.value (m : SourceMetadata) : Value :=
  .obj [("filter", m.filter.value), ("sort", m.sort.value)]

/-! ## Entities -/

/-- Display names, keyed by logical name. -/
def DisplayNames.decode (d : Document) : Except DocumentFault DisplayNames :=
  match (decodeDict decodeText d : Except DocumentFault (Dict String String)) with
  | .error e => .error e
  | .ok ps => (DisplayNames.ofDict ps).mapError fun e => .refused (.displayName e)

/-- Display names, keyed by logical name. -/
def DisplayNames.value (m : DisplayNames) : Value :=
  .obj (m.byLogical.entries.map fun e => (e.1, .str e.2))

/-- An entity's description, as far as it is read. -/
structure Entity.Draft where
  displayNames : Option DisplayNames := none
  source : Option SourceMetadata := none

/-- The fields of an entity's description. -/
def Entity.slots : List (Slot Refusal Entity.Draft) :=
  [slot "display_name_mapping" (·.displayNames) (fun a s => { s with displayNames := some a })
     DisplayNames.decode,
   slot "delegation" (·.source) (fun a s => { s with source := some a }) SourceMetadata.decode]

/-- An entity's description of itself. -/
def Entity.decode : Reads Entity :=
  decodeRecord Entity.slots {} fun _ s => .ok ⟨s.displayNames.getD {}, s.source.getD {}⟩

/-- An entity's description of itself. -/
def Entity.value (e : Entity) : Value :=
  .obj [("delegation", e.source.value), ("display_name_mapping", e.displayNames.value)]

end Delegability
