/-
# `Delegability.Name` — names of tables and columns

A name is any text that can be told from nothing: not empty and not blank
throughout.  The type carries this, so a name that exists is usable.  `ofText`
refuses other texts; `makeValid` repairs them.
-/
import Delegability.Text.Blank
import Delegability.Text.Quoted

namespace Delegability

/-- Whether a text can be a name. -/
def isNameText (s : String) : Bool :=
  !s.toList.isEmpty && !Text.allBlank s

/-- A name of a table or a column. -/
structure Name where
  text : String
  /-- It is not empty and not blank throughout. -/
  valid : isNameText text = true
deriving DecidableEq

/-- Why a text is not a name. -/
inductive NameError where
  | empty
  | blank (text : String)
deriving DecidableEq

/-- The message for a text that is not a name. -/
def NameError.message : NameError → String
  | .empty => "Name must not be empty"
  | .blank s => "Name must not consist only of whitespace: " ++ Text.quoted s

namespace Name

instance : ToString Name := ⟨Name.text⟩

instance : Ord Name := ⟨fun a b => compare a.text b.text⟩

/-- The name with a given text. -/
def ofText (s : String) : Except NameError Name :=
  if h : isNameText s = true then .ok ⟨s, h⟩
  else if s.toList.isEmpty then .error .empty
  else .error (.blank s)

/-- Every blank becomes a plain space. -/
def plainBlank (c : Char) : Char :=
  if Text.isBlank c then ' ' else c

/-- The repaired characters: plain blanks, and an underscore in front when
there is nothing else. -/
def repairedChars (cs : List Char) : List Char :=
  if cs.all Text.isBlank then '_' :: cs.map plainBlank else cs.map plainBlank

theorem isBlank_plainBlank (c : Char) : Text.isBlank (plainBlank c) = Text.isBlank c := by
  by_cases h : Text.isBlank c = true
  · simp [plainBlank, h, Text.isBlank_space]
  · simp [plainBlank, h]

theorem all_isBlank_map_plainBlank (cs : List Char) :
    (cs.map plainBlank).all Text.isBlank = cs.all Text.isBlank := by
  induction cs with
  | nil => rfl
  | cons c cs ih => simp [isBlank_plainBlank, ih]

/-- Repaired characters make a name. -/
theorem isNameText_repaired (cs : List Char) :
    isNameText (String.ofList (repairedChars cs)) = true := by
  unfold repairedChars
  split
  · simp [isNameText, Text.allBlank, Text.isBlank_underscore]
  next h =>
    have hne : cs ≠ [] := by rintro rfl; simp at h
    have := all_isBlank_map_plainBlank cs
    simp only [isNameText, Text.allBlank, String.toList_ofList, this]
    simp [hne] at h ⊢
    exact h

/-- A name for any text, and whether the text had to be changed for it. -/
def makeValid (s : String) : Name × Bool :=
  (⟨String.ofList (repairedChars s.toList), isNameText_repaired s.toList⟩,
    s.toList.all Text.isBlank || s.toList.any fun c => plainBlank c != c)

instance : Std.TransOrd Name where
  eq_swap {a b} := @Std.OrientedCmp.eq_swap String compare _ a.text b.text
  isLE_trans {a b c} := @Std.TransCmp.isLE_trans String compare _ a.text b.text c.text

instance : Std.LawfulEqOrd Name where
  compare_self {a} := @Std.ReflCmp.compare_self String compare _ a.text
  eq_of_compare {a b} h := by
    cases a; cases b
    cases @Std.LawfulEqCmp.eq_of_compare String compare _ _ _ h
    rfl

end Name

end Delegability
