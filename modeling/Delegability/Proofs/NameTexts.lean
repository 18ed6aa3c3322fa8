/-
# `Delegability.Proofs.NameTexts` — texts as names and as paths

A text is a name if something in it can be seen.  Two functions rest on this: one repairs a text
until it is a name, the other cuts a text at its dots and takes every piece for a name.

    repaired    every blank is a plain space, and an underscore stands in front of blanks only
    repaired = text      iff     the text is a name, and its blanks are plain spaces

Repair has something to do or it does not, and its flag is about nothing else; a repaired text
has nothing left to repair.

    parse s = p          iff     p is clean and its dotted form is s
    parse s = refused            at the first piece of s that is no name

The first line is `ColumnPath.parse_eq_ok`; here it is put together with the second into what a
text between dots means, and where the way back from a path is lost.
-/
import Delegability.Proofs.FirstFault

namespace Delegability

/-! ## Repaired texts -/

namespace Name

/-- Its only blanks are plain spaces. -/
def PlainBlanks (cs : List Char) : Prop := ∀ c ∈ cs, Text.isBlank c = true → c = ' '

theorem plainBlank_eq_self {c : Char} : plainBlank c = c ↔ (Text.isBlank c = true → c = ' ') := by
  by_cases h : Text.isBlank c = true
  · simp [plainBlank, h, eq_comm]
  · simp [plainBlank, h]

theorem map_plainBlank_eq_self {cs : List Char} : cs.map plainBlank = cs ↔ PlainBlanks cs := by
  have hmap : cs.map plainBlank = cs.map id ↔ ∀ c ∈ cs, plainBlank c = c := List.map_inj_left
  rw [List.map_id] at hmap
  exact hmap.trans (forall₂_congr fun _ _ => plainBlank_eq_self)

theorem plainBlanks_map (cs : List Char) : PlainBlanks (cs.map plainBlank) := by
  intro c hc hblank
  obtain ⟨d, -, rfl⟩ := List.mem_map.mp hc
  rw [isBlank_plainBlank] at hblank
  exact if_pos hblank

theorem plainBlanks_repaired (cs : List Char) : PlainBlanks (repairedChars cs) := by
  unfold repairedChars
  split
  next =>
    rintro c (_ | ⟨_, hc⟩) hblank
    · cases hblank
    · exact plainBlanks_map cs c hc hblank
  next => exact plainBlanks_map cs

/-- A text is a name if something in it is not blank. -/
theorem isNameText_iff {s : String} : isNameText s = true ↔ s.toList.all Text.isBlank = false := by
  unfold isNameText Text.allBlank
  cases s.toList with
  | nil => exact iff_of_false Bool.false_ne_true Bool.noConfusion
  | cons c cs => rw [List.isEmpty_cons, Bool.not_false, Bool.true_and, Bool.not_eq_true']

theorem exists_ofText_iff {s : String} : (∃ n, ofText s = .ok n) ↔ isNameText s = true := by
  constructor
  · rintro ⟨n, h⟩
    exact text_of_ofText h ▸ n.valid
  · intro h
    exact ⟨⟨s, h⟩, ofText_text ⟨s, h⟩⟩

/-- There is nothing to repair in a name whose blanks are plain spaces, and only there. -/
theorem repairedChars_eq_self {cs : List Char} :
    repairedChars cs = cs ↔ cs.all Text.isBlank = false ∧ PlainBlanks cs := by
  unfold repairedChars
  split
  next hall =>
    -- the underscore makes the text longer
    refine iff_of_false (fun h => ?_) (fun h => ?_)
    · have hlength := congrArg List.length h
      rw [List.length_cons, List.length_map] at hlength
      omega
    · rw [hall] at h
      cases h.1
  next hall =>
    rw [Bool.not_eq_true] at hall
    rw [map_plainBlank_eq_self]
    exact ⟨fun h => ⟨hall, h⟩, And.right⟩

theorem text_makeValid (s : String) :
    (makeValid s).1.text.toList = repairedChars s.toList := String.toList_ofList

theorem modified_eq_false {s : String} :
    (makeValid s).2 = false ↔ repairedChars s.toList = s.toList := by
  unfold makeValid
  rw [repairedChars_eq_self, Bool.or_eq_false_iff, List.any_eq_false]
  simp only [bne_iff_ne, ne_eq, not_not, plainBlank_eq_self, PlainBlanks]

theorem makeValid_text (s : String) : makeValid (makeValid s).1.text = ((makeValid s).1, false) := by
  have hdone : repairedChars (makeValid s).1.text.toList = (makeValid s).1.text.toList := by
    refine repairedChars_eq_self.mpr ⟨isNameText_iff.mp (makeValid s).1.valid, ?_⟩
    rw [text_makeValid]
    exact plainBlanks_repaired s.toList
  refine Prod.ext (eq_of_text ?_) (modified_eq_false.mpr hdone)
  rw [← String.toList_inj, text_makeValid, hdone]

/-- **Repair.**  The repaired text is a name, its only blanks are plain spaces, and it stays as it
is when it is repaired again.  The flag says whether it is another text; it is not iff the text was
a name whose only blanks are plain spaces. -/
theorem makeValid_repairs_once (s : String) :
    ofText (makeValid s).1.text = .ok (makeValid s).1 ∧
    ((makeValid s).2 = true ↔ (makeValid s).1.text ≠ s) ∧
    ((makeValid s).2 = false ↔
      (∃ n, ofText s = .ok n) ∧ ∀ c ∈ s.toList, Text.isBlank c = true → c = ' ') ∧
    (∀ c ∈ (makeValid s).1.text.toList, Text.isBlank c = true → c = ' ') ∧
    makeValid (makeValid s).1.text = ((makeValid s).1, false) := by
  refine ⟨ofText_text _, ?_, ?_, ?_, makeValid_text s⟩
  · rw [Ne, ← String.toList_inj, text_makeValid, ← modified_eq_false, Bool.not_eq_false]
  · rw [modified_eq_false, repairedChars_eq_self, exists_ofText_iff, isNameText_iff]
    rfl
  · rw [text_makeValid]
    exact plainBlanks_repaired s.toList

end Name

/-! ## Texts between dots -/

/-- A first fault cuts the list: nothing is wrong with what is before it. -/
theorem FirstFault.iff_split {α ε : Type} {Fault : α → ε → Prop} {as : List α} {why : ε} :
    FirstFault Fault as why ↔ ∃ before a after, as = before ++ a :: after ∧
      (∀ x ∈ before, ∀ e, ¬ Fault x e) ∧ Fault a why := by
  constructor
  · intro h
    induction h with
    | here h => exact ⟨[], _, _, rfl, fun x hx => absurd hx List.not_mem_nil, h⟩
    | later hno _ ih =>
        obtain ⟨before, a, after, rfl, hbefore, ha⟩ := ih
        exact ⟨_ :: before, a, after, rfl, List.forall_mem_cons.mpr ⟨hno, hbefore⟩, ha⟩
  · rintro ⟨before, a, after, rfl, hbefore, ha⟩
    induction before with
    | nil => exact .here ha
    | cons x before ih =>
        obtain ⟨hx, hbefore⟩ := List.forall_mem_cons.mp hbefore
        exact .later hx (ih hbefore)

namespace ColumnPath

/-- A piece of a text that is a name: there is something in it, and something to be seen. -/
def NamePiece (piece : List Char) : Prop := piece ≠ [] ∧ ∃ c ∈ piece, Text.isBlank c = false

theorem any_iff_namePiece {piece : List Char} :
    (piece.any fun c => !Text.isBlank c) = true ↔ NamePiece piece := by
  simp only [List.any_eq_true, Bool.not_eq_true']
  constructor
  · rintro ⟨c, hc, hseen⟩
    exact ⟨List.ne_nil_of_mem hc, c, hc, hseen⟩
  · rintro ⟨-, hseen⟩
    exact hseen

instance (piece : List Char) : Decidable (NamePiece piece) :=
  decidable_of_iff _ any_iff_namePiece

/-- The piece is no name, and `e` says why. -/
def BadPiece (piece : List Char) (e : NameError) : Prop :=
  piece = [] ∧ e = .empty ∨
    piece ≠ [] ∧ (∀ c ∈ piece, Text.isBlank c = true) ∧ e = .blank (String.ofList piece)

theorem noName_ofList {piece : List Char} {e : NameError} :
    NoName (String.ofList piece) e ↔ BadPiece piece e := by
  constructor
  · intro h
    generalize hs : String.ofList piece = s at h
    have hpiece : piece = s.toList := by rw [← hs, String.toList_ofList]
    subst hpiece
    cases h with
    | empty => exact .inl ⟨rfl, rfl⟩
    | blank hne hblank =>
        have hne' : s.toList ≠ [] := fun hnil => hne (String.toList_eq_nil_iff.mp hnil)
        exact .inr ⟨hne', hblank, congrArg _ hs.symm⟩
  · rintro (⟨rfl, rfl⟩ | ⟨hne, hblank, rfl⟩)
    · exact .empty
    · refine .blank ?_ (by rwa [String.toList_ofList])
      rwa [Ne, ← String.toList_eq_nil_iff, String.toList_ofList]

theorem not_badPiece {piece : List Char} : (∀ e, ¬ BadPiece piece e) ↔ NamePiece piece := by
  constructor
  · intro h
    have hne : piece ≠ [] := fun hnil => h _ (.inl ⟨hnil, rfl⟩)
    refine ⟨hne, ?_⟩
    by_contra hno
    refine h _ (.inr ⟨hne, fun c hc => ?_, rfl⟩)
    exact Bool.of_not_eq_false fun hc' => hno ⟨c, hc, hc'⟩
  · rintro ⟨hne, c, hc, hseen⟩ e (⟨hnil, -⟩ | ⟨-, hblank, -⟩)
    · exact hne hnil
    · exact Bool.false_ne_true (hseen.symm.trans (hblank c hc))

theorem parse_eq_error_iff {s : String} {e : NameError} : parse s = .error e ↔
    ∃ before piece after, s.toList.splitOn '.' = before ++ piece :: after ∧
      (∀ p ∈ before, NamePiece p) ∧ BadPiece piece e := by
  rw [parse_eq_error, FirstFault.iff_split]
  simp only [noName_ofList, not_badPiece]

theorem exists_parse_iff {s : String} :
    (∃ p, parse s = .ok p) ↔ ∀ piece ∈ s.toList.splitOn '.', NamePiece piece := by
  have hok : (∃ p, parse s = .ok p) ↔ ¬ ∃ e, parse s = .error e := by
    cases parse s with
    | ok p => simp
    | error e => simp
  simp only [hok, parse_eq_error, FirstFault.exists_iff, noName_ofList,
    ← not_badPiece, not_exists, not_and]

/-- **Dotted forms.**  A text is parsed iff each of its pieces between dots is a name; otherwise
the first piece that is none is the fault.  What has been parsed is written as it was.  A path is
parsed from its own dotted form iff it is not the row itself and none of its names holds a dot; so
no two paths that can be parsed have one dotted form. -/
theorem parse_inverts_dotted :
    (∀ s, ((∃ p, parse s = .ok p) ↔ ∀ piece ∈ s.toList.splitOn '.', NamePiece piece) ∧
      (∀ e, parse s = .error e ↔ ∃ before piece after,
        s.toList.splitOn '.' = before ++ piece :: after ∧ (∀ p ∈ before, NamePiece p) ∧
          BadPiece piece e) ∧
      ∀ p, parse s = .ok p → p.dotted = s) ∧
    (∀ p, parse p.dotted = .ok p ↔ p ≠ root ∧ ∀ n ∈ p.segments, '.' ∉ n.text.toList) ∧
    ∀ s s' p p', parse s = .ok p → parse s' = .ok p' → p.dotted = p'.dotted → p = p' := by
  refine ⟨fun s => ⟨exists_parse_iff, fun e => parse_eq_error_iff, fun p h => (parse_eq_ok.mp h).2⟩,
    fun p => ?_, fun s s' p p' h h' => ?_⟩
  · have hroot : p ≠ root ↔ p.segments ≠ [] := not_congr ⟨congrArg segments, congrArg mk⟩
    rw [parse_eq_ok, hroot]
    exact and_iff_left rfl
  · exact (parse_eq_ok.mp h).1.eq_of_dotted (parse_eq_ok.mp h').1

end ColumnPath

/-! ## Two faults in one text

The empty piece comes first.  A name with a dot in it is written as two names would be. -/

namespace Sample

def streetPath : ColumnPath := (ColumnPath.root.append ⟨"Site", by decide⟩).append ⟨"Street", by decide⟩

def dottedStreet : ColumnPath := .ofName ⟨"Site.Street", by decide⟩

theorem street_inverts_dotted :
    ColumnPath.parse "Site.. " = .error .empty ∧
      ColumnPath.parse "Site. ." = .error (.blank " ") ∧
      (∃ p, ColumnPath.parse "Site.Street" = .ok p ∧ p.dotted = "Site.Street" ∧ p = streetPath) ∧
      dottedStreet.dotted = "Site.Street" ∧
      ColumnPath.parse dottedStreet.dotted ≠ .ok dottedStreet := by
  obtain ⟨htext, hpath, hinjective⟩ := ColumnPath.parse_inverts_dotted
  obtain ⟨-, hempty, -⟩ := htext "Site.. "
  obtain ⟨-, hblank, -⟩ := htext "Site. ."
  obtain ⟨hok, -, hwritten⟩ := htext "Site.Street"
  obtain ⟨p, hp⟩ := hok.mpr (by decide)
  have hstreet : ColumnPath.parse streetPath.dotted = .ok streetPath := (hpath streetPath).mpr (by decide)
  refine ⟨(hempty _).mpr ⟨["Site".toList], [], [" ".toList], rfl, by decide, .inl ⟨rfl, rfl⟩⟩,
    (hblank _).mpr ⟨["Site".toList], [' '], [[]], rfl, by decide,
      .inr ⟨by decide, List.forall_mem_singleton.mpr Text.isBlank_space, rfl⟩⟩,
    ⟨p, hp, hwritten p hp, hinjective _ _ p streetPath hp hstreet (hwritten p hp)⟩, rfl, ?_⟩
  rw [Ne, hpath]
  intro h
  exact h.2 _ List.mem_cons_self (by decide)

end Sample

end Delegability
