/-
# `Delegability.DelegableFunction` — functions of formulas

A function has a name and a set of capabilities that a source needs for it.
Three families have a rule of their own for calls: matching the start or the end
of a text, which a source may do; `User`, which is known before the query is
sent; and `AsType`, which casts a reference.  All others are judged alike.
-/
import Delegability.Capability
import Delegability.Dict
import Delegability.Text.Quoted

namespace Delegability

/-- A function of formulas. -/
inductive DelegableFunction where
  /-- A function over the rows of a table. -/
  | table (name : String) (requires : CapabilitySet)
  /-- A function of plain values that no source knows. -/
  | scalar (name : String)
  | startsWith
  | endsWith
  | user
  | asType
deriving DecidableEq, Inhabited

namespace DelegableFunction

/-- The name in formulas. -/
def name : DelegableFunction → String
  | .table n _ => n
  | .scalar n => n
  | .startsWith => "StartsWith"
  | .endsWith => "EndsWith"
  | .user => "User"
  | .asType => "AsType"

/-- What a source needs for the function. -/
def requires : DelegableFunction → CapabilitySet
  | .table _ c => c
  | .scalar _ => .none
  | .startsWith => .single .startsWith
  | .endsWith => .single .endsWith
  | .user => .none
  | .asType => .single .asType

/-- The function with its requirement, in one line. -/
def describe (f : DelegableFunction) : String :=
  r"DelegableFunction { name: " ++ Text.quoted f.name ++ ", capability: " ++
    f.requires.describe ++ r" }"

/-- Keeps the rows that satisfy a condition. -/
def filter : DelegableFunction := .table "Filter" (.single .filter)

/-- Finds a row that satisfies a condition. -/
def lookUp : DelegableFunction := .table "LookUp" (.single .filter)

/-- Sorts rows by a value. -/
def sort : DelegableFunction := .table "Sort" (.single .sort)

/-- Sorts rows by columns. -/
def sortByColumns : DelegableFunction := .table "SortByColumns" (.single .sort)

/-- The functions that every formula may call. -/
def builtins : List DelegableFunction :=
  [filter, lookUp, sort, sortByColumns, .startsWith, .endsWith, .user, .asType]

end DelegableFunction

/-- Why the registry of functions refuses. -/
inductive FunctionError where
  | notFound (name : String)
  | alreadyExists (name : String)
  /-- The registry itself failed. -/
  | internal (detail : String)
deriving DecidableEq

namespace FunctionError

/-- The code of an error. -/
def code : FunctionError → String
  | .notFound _ => "DELEG_FUNCTION_NOT_FOUND"
  | .alreadyExists _ => "DELEG_FUNCTION_EXISTS"
  | .internal _ => "DELEG_FUNCTION_INTERNAL"

/-- The message of an error. -/
def message : FunctionError → String
  | .notFound n => "Function not found: " ++ n
  | .alreadyExists n => "Function already exists: " ++ n
  | .internal d => "Internal error: " ++ d

end FunctionError

/-- Functions by name. -/
structure FunctionRegistry where
  functions : Dict String DelegableFunction := ∅
deriving DecidableEq, Inhabited

namespace FunctionRegistry

/-- The function of a name. -/
def get (r : FunctionRegistry) (name : String) : Except FunctionError DelegableFunction :=
  match r.functions.get? name with
  | some f => .ok f
  | none => .error (.notFound name)

/-- Registers a function under its name, which must be new. -/
def register (r : FunctionRegistry) (f : DelegableFunction) :
    Except FunctionError FunctionRegistry :=
  if r.functions.contains f.name then .error (.alreadyExists f.name)
  else .ok ⟨r.functions.insert f.name f⟩

/-- Takes a function out. -/
def unregister (r : FunctionRegistry) (name : String) : Except FunctionError FunctionRegistry :=
  if r.functions.contains name then .ok ⟨r.functions.erase name⟩
  else .error (.notFound name)

/-- The registered names, in order. -/
def names (r : FunctionRegistry) : List String := r.functions.keys

/-- The registry of the functions that every formula may call; their names differ. -/
def builtins : FunctionRegistry :=
  ⟨.ofList (DelegableFunction.builtins.map fun f => (f.name, f))⟩

end FunctionRegistry

end Delegability
