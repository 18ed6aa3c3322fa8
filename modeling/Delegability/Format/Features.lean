/-
# `Delegability.Format.Features` — features as JSON

Configurations and cases both may allow more than the default.
-/
import Delegability.Facts
import Delegability.Format.Metadata

namespace Delegability.Features

open Json

/-- Features, as far as they are read. -/
structure Draft where
  allowImpure : Option Bool := none
  allowAsync : Option Bool := none

/-- The fields of features. -/
def slots : List (Slot Refusal Draft) :=
  [slot "allow_impure_node_delegation" (·.allowImpure)
     (fun a s => { s with allowImpure := some a }) decodeBool,
   slot "allow_async_delegation" (·.allowAsync) (fun a s => { s with allowAsync := some a })
     decodeBool]

/-- Features; what is not mentioned is not allowed. -/
def decode : Reads Features :=
  decodeRecord slots {} fun _ s => .ok ⟨s.allowImpure.getD false, s.allowAsync.getD false⟩

/-- Features as a value. -/
def value (f : Features) : Value :=
  .obj [("allow_async_delegation", .bool f.allowAsync),
    ("allow_impure_node_delegation", .bool f.allowImpure)]

end Delegability.Features
