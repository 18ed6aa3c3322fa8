/-
# `Delegability.Capability` — what a data source can evaluate

A capability is one kind of work that a remote source may take over: filtering,
sorting, or one of the operators.  A source, a column and a function each have a
set of them.  A set is one bit per capability, so two sets with the same
capabilities are equal; outside it is a list of names in the order of
declaration.
-/

namespace Delegability

/-- One kind of work a data source may take over. -/
inductive Capability where
  | sort | filter | sortAscendingOnly
  | and | or | not
  | equal | notEqual | lessThan | lessThanOrEqual | greaterThan | greaterThanOrEqual
  | isIn | exactIn
  | contains | startsWith | endsWith
  | negate | add | sub | mul | div
  | asType
deriving DecidableEq, Inhabited

namespace Capability

/-- All capabilities, in the order of declaration. -/
def all : List Capability :=
  [.sort, .filter, .sortAscendingOnly, .and, .or, .not, .equal, .notEqual, .lessThan,
   .lessThanOrEqual, .greaterThan, .greaterThanOrEqual, .isIn, .exactIn, .contains,
   .startsWith, .endsWith, .negate, .add, .sub, .mul, .div, .asType]

/-- The name of a capability. -/
def name : Capability → String
  | .sort => "sort"
  | .filter => "filter"
  | .sortAscendingOnly => "sort_ascending_only"
  | .and => "and"
  | .or => "or"
  | .not => "not"
  | .equal => "equal"
  | .notEqual => "not_equal"
  | .lessThan => "less_than"
  | .lessThanOrEqual => "less_than_or_equal"
  | .greaterThan => "greater_than"
  | .greaterThanOrEqual => "greater_than_or_equal"
  | .isIn => "in"
  | .exactIn => "exact_in"
  | .contains => "contains"
  | .startsWith => "starts_with"
  | .endsWith => "ends_with"
  | .negate => "negate"
  | .add => "add"
  | .sub => "sub"
  | .mul => "mul"
  | .div => "div"
  | .asType => "as_type"

/-- The capability with a given name. -/
def ofName? (s : String) : Option Capability :=
  all.find? fun c => c.name = s

/-- The place of a capability in the order of declaration. -/
def index (c : Capability) : Nat := c.ctorIdx

theorem mem_all (c : Capability) : c ∈ all := by cases c <;> decide

theorem index_lt (c : Capability) : c.index < 23 := by cases c <;> decide

/-- Different capabilities have different places. -/
theorem index_inj {a b : Capability} (h : a.index = b.index) : a = b := by
  have : ∀ a ∈ all, ∀ b ∈ all, a.index = b.index → a = b := by decide
  exact this a (mem_all a) b (mem_all b) h

end Capability

/-- A set of capabilities. -/
structure CapabilitySet where
  /-- One bit per capability, by its place. -/
  bits : BitVec 23
deriving DecidableEq

namespace CapabilitySet

/-- The set without capabilities. -/
def none : CapabilitySet := ⟨0⟩

instance : Inhabited CapabilitySet := ⟨none⟩

/-- The set of one capability. -/
def single (c : Capability) : CapabilitySet := ⟨BitVec.twoPow 23 c.index⟩

instance : Coe Capability CapabilitySet := ⟨single⟩

/-- Whether a capability is in the set. -/
def has (s : CapabilitySet) (c : Capability) : Bool := s.bits.getLsbD c.index

/-- What is in either set. -/
def union (s t : CapabilitySet) : CapabilitySet := ⟨s.bits ||| t.bits⟩

/-- What is in both sets. -/
def inter (s t : CapabilitySet) : CapabilitySet := ⟨s.bits &&& t.bits⟩

instance : Union CapabilitySet := ⟨union⟩

instance : Inter CapabilitySet := ⟨inter⟩

/-- Whether nothing is in the set. -/
def isEmpty (s : CapabilitySet) : Bool := s.bits == 0

/-- Whether `t` asks for something and `s` has all of it. -/
def hasAll (s t : CapabilitySet) : Bool := !t.isEmpty && s.bits &&& t.bits == t.bits

/-- Whether the sets share a capability. -/
def meets (s t : CapabilitySet) : Bool := !(s ∩ t).isEmpty

/-- The set of a list of capabilities. -/
def ofList (cs : List Capability) : CapabilitySet :=
  cs.foldl (fun s c => s ∪ single c) none

/-- The capabilities in the set, in the order of declaration. -/
def toList (s : CapabilitySet) : List Capability :=
  Capability.all.filter s.has

/-- Sorting, in either form. -/
def sorting : CapabilitySet := ofList [.sort, .sortAscendingOnly]

/-- Whether sorting is among the capabilities. -/
def requiresSort (s : CapabilitySet) : Bool := s.meets sorting

/-! ## As names -/

/-- The names of the capabilities, in the order of declaration. -/
def names (s : CapabilitySet) : List String :=
  s.toList.map Capability.name

/-- The set of a list of names; the first name of no capability is the fault. -/
def ofNames : List String → Except String CapabilitySet
  | [] => .ok none
  | n :: ns =>
    match Capability.ofName? n with
    | .none => .error n
    | .some c => (ofNames ns).map fun s => single c ∪ s

/-- The names, with bars between them. -/
def barred (s : CapabilitySet) : String :=
  "|".intercalate s.names

/-- A set as it stands in reports. -/
def text (s : CapabilitySet) : String :=
  if s.isEmpty then "none" else s.barred

/-- A set as it stands in descriptions of functions. -/
def describe (s : CapabilitySet) : String :=
  "DelegationCapability(" ++ s.barred ++ ")"

/-! ## Membership -/

/-- A set is determined by its members. -/
theorem ext_has {s t : CapabilitySet} (h : ∀ c, s.has c = t.has c) : s = t := by
  obtain ⟨a⟩ := s
  obtain ⟨b⟩ := t
  congr
  refine BitVec.eq_of_getLsbD_eq fun i hi => ?_
  have hc : ∃ c : Capability, c.index = i :=
    (by decide : ∀ i : Fin 23, ∃ c ∈ Capability.all, c.index = i.val) ⟨i, hi⟩ |>.imp
      fun _ => And.right
  obtain ⟨c, rfl⟩ := hc
  exact h c

@[simp]
theorem has_none (c : Capability) : none.has c = false := by simp [has, none]

@[simp]
theorem has_single (c d : Capability) : (single c).has d = decide (c = d) := by
  simp only [has, single, BitVec.getLsbD_twoPow, c.index_lt, decide_true, Bool.true_and]
  exact decide_eq_decide.2 ⟨fun h => Capability.index_inj h, congrArg _⟩

@[simp]
theorem has_union (s t : CapabilitySet) (c : Capability) :
    (s ∪ t).has c = (s.has c || t.has c) := by
  show (s.bits ||| t.bits).getLsbD _ = _
  simp [has]

@[simp]
theorem has_inter (s t : CapabilitySet) (c : Capability) :
    (s ∩ t).has c = (s.has c && t.has c) := by
  show (s.bits &&& t.bits).getLsbD _ = _
  simp [has]

end CapabilitySet

end Delegability
