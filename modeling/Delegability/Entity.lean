/-
# `Delegability.Entity` — entities that columns refer to

A column may refer to a row of another entity.  What can be asked of that row is
up to that entity's own description, which a registry finds by the entity's
identity.  An identity that is not registered is no fault of the registry: it is
reported where it is used.
-/
import Delegability.DisplayNames
import Delegability.Metadata

namespace Delegability

/-- An entity's description of itself. -/
structure Entity where
  displayNames : DisplayNames := {}
  source : SourceMetadata := {}
deriving DecidableEq, Inhabited

/-- Entities by identity. -/
structure EntityRegistry where
  entities : Dict String Entity := ∅
deriving DecidableEq, Inhabited

/-- Why an entity cannot be registered, or a display name not be given. -/
inductive RegistryError where
  | duplicateEntity (identity : String)
  /-- Two columns claim one display name. -/
  | ambiguousDisplayName (e : AmbiguousDisplayName)
  /-- The registry itself failed. -/
  | internal (detail : String)
deriving DecidableEq

/-- The message for a failed registration. -/
def RegistryError.message : RegistryError → String
  | .duplicateEntity i => "Entity already registered: " ++ i
  | .ambiguousDisplayName e => e.message
  | .internal d => "Internal error: " ++ d

namespace EntityRegistry

/-- The entity of an identity. -/
def find? (r : EntityRegistry) (identity : String) : Option Entity :=
  r.entities.get? identity

/-- Registers an entity under a new identity. -/
def register (r : EntityRegistry) (identity : String) (e : Entity) :
    Except RegistryError EntityRegistry :=
  if r.entities.contains identity then .error (.duplicateEntity identity)
  else .ok ⟨r.entities.insert identity e⟩

/-- The registered identities, in order. -/
def identities (r : EntityRegistry) : List String := r.entities.keys

end EntityRegistry

end Delegability
