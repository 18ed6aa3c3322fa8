/-
# `Delegability.Proofs.DisplayNames` — two directions of one mapping

A mapping keeps its pairs twice, once by the logical name and once by the display name.  The
type allows the two to disagree; a mapping that is built by inserts (`DisplayNames.Built`), as
every mapping that is read is, never does:

    logical  ──displayFor?──▸  display        iff        display  ──logicalFor?──▸  logical

An insert takes the former display name of its column out before the new one goes in, and is
refused where the new one belongs to another column.  Without either of the two a display name
would lead to a column that does not go by it.  `inserts_keep_bijection` says this of inserts in
any order, refused ones among them, together with all that one more insert does.
-/
import Mathlib.Data.List.Nodup
import Mathlib.Data.Prod.Basic
import Delegability.DisplayNames
import Delegability.Proofs.Success

namespace Delegability

namespace DisplayNames

variable {m m' : DisplayNames} {logical display : String}

/-! ## One binding -/

theorem displayFor?_bind (m : DisplayNames) (logical display l : String) :
    (m.bind logical display).displayFor? l =
      if l = logical then some display else m.displayFor? l := by
  split
  next h =>
    subst h
    exact m.byLogical.get?_insert_self l display
  next h =>
    exact m.byLogical.get?_insert_of_ne (fun hc => h (Std.LawfulEqCmp.eq_of_compare hc)) display

/-- The former display name of the column no longer leads to it. -/
theorem logicalFor?_bind (m : DisplayNames) (logical display d : String) :
    (m.bind logical display).logicalFor? d =
      if d = display then some logical
      else if m.displayFor? logical = some d then none
      else m.logicalFor? d := by
  unfold bind logicalFor? displayFor?
  by_cases h : d = display
  · rw [if_pos h, h]
    exact Dict.get?_insert_self _ display logical
  · have hne : compare d display ≠ .eq := fun hc => h (Std.LawfulEqCmp.eq_of_compare hc)
    rw [if_neg h, Dict.get?_insert_of_ne _ hne]
    cases m.byLogical.get? logical with
    | none => rfl
    | some old =>
        by_cases hold : old = d
        · rw [if_pos (congrArg some hold), hold]
          exact m.byDisplay.get?_erase_self d
        · have hne' : compare d old ≠ .eq := fun hc =>
            hold (Std.LawfulEqCmp.eq_of_compare hc).symm
          rw [if_neg fun he => hold (Option.some.inj he)]
          exact m.byDisplay.get?_erase_of_ne hne'

/-- The display name belongs to no other column. -/
def Free (m : DisplayNames) (logical display : String) : Prop :=
  ∀ first, m.logicalFor? display = some first → first = logical

/-- An insert binds if the display name is free. -/
theorem insert_of_free (h : m.Free logical display) :
    m.insert logical display = (.ok (), m.bind logical display) := by
  unfold insert
  cases hfirst : m.byDisplay.get? display with
  | none => rfl
  | some first => exact if_pos (h first hfirst)

/-- An insert is refused if the display name belongs to another column, which is named; the
mapping is then as it was. -/
theorem insert_of_taken {first : String} (h : m.logicalFor? display = some first)
    (hne : first ≠ logical) :
    m.insert logical display = (.error ⟨display, first, logical⟩, m) := by
  rw [logicalFor?] at h
  rw [insert, h]
  exact if_neg hne

theorem free_or_taken (m : DisplayNames) (logical display : String) :
    m.Free logical display ∨ ∃ first, m.logicalFor? display = some first ∧ first ≠ logical := by
  by_cases h : m.Free logical display
  · exact Or.inl h
  · obtain ⟨first, hfirst⟩ := not_forall.mp h
    exact Or.inr ⟨first, Classical.not_imp.mp hfirst⟩

theorem insert_eq_ok : (m.insert logical display).1 = .ok () ↔ m.Free logical display := by
  constructor
  · intro h first hfirst
    by_contra hne
    rw [insert_of_taken hfirst hne] at h
    cases h
  · intro h
    rw [insert_of_free h]

theorem insert_eq_error {e : AmbiguousDisplayName} : (m.insert logical display).1 = .error e ↔
    ∃ first, m.logicalFor? display = some first ∧ first ≠ logical ∧
      e = ⟨display, first, logical⟩ := by
  constructor
  · intro h
    rcases m.free_or_taken logical display with hfree | ⟨first, hfirst, hne⟩
    · rw [insert_of_free hfree] at h
      cases h
    · rw [insert_of_taken hfirst hne] at h
      exact ⟨first, hfirst, hne, (Except.error.inj h).symm⟩
  · rintro ⟨first, hfirst, hne, rfl⟩
    rw [insert_of_taken hfirst hne]

theorem extend_eq_ok {pair : String × String} : m.extend pair = .ok m' ↔
    m.Free pair.1 pair.2 ∧ m.bind pair.1 pair.2 = m' := by
  unfold extend
  rcases m.free_or_taken pair.1 pair.2 with hfree | ⟨first, hfirst, hne⟩
  · rw [insert_of_free hfree, and_iff_right hfree]
    exact ⟨Except.ok.inj, congrArg _⟩
  · rw [insert_of_taken hfirst hne]
    exact iff_of_false (fun h => by cases h) fun h => hne (h.1 first hfirst)

theorem extend_eq_error {pair : String × String} {e : AmbiguousDisplayName} :
    m.extend pair = .error e ↔ (m.insert pair.1 pair.2).1 = .error e := by
  unfold extend
  rcases m.insert pair.1 pair.2 with ⟨_ | _, after⟩
  · exact ⟨fun h => congrArg _ (Except.error.inj h), fun h => congrArg _ (Except.error.inj h)⟩
  · exact iff_of_false (fun h => by cases h) (fun h => by cases h)

/-! ## Mappings that are built -/

/-- The mapping comes about by inserts, from one without pairs. -/
inductive Built : DisplayNames → Prop
  | empty : Built {}
  | insert {m : DisplayNames} (logical display : String) : Built m →
      Built (m.insert logical display).2

theorem Built.foldlM (h : m.Built) {pairs : List (String × String)}
    (hrun : pairs.foldlM extend m = .ok m') : m'.Built := by
  induction pairs generalizing m with
  | nil =>
      cases hrun
      exact h
  | cons pair pairs ih =>
      rw [List.foldlM_cons] at hrun
      obtain ⟨next, hextend, hrest⟩ := Success.bind_eq_ok.mp hrun
      obtain ⟨hfree, rfl⟩ := extend_eq_ok.mp hextend
      have hnext := h.insert pair.1 pair.2
      rw [insert_of_free hfree] at hnext
      exact ih hnext hrest

/-- Every mapping that is read has been built. -/
theorem built_of_ofPairs {pairs : List (String × String)} (h : ofPairs pairs = .ok m) : m.Built :=
  Built.empty.foldlM h

theorem byLogical_of_foldlM {pairs : List (String × String)}
    (h : pairs.foldlM extend m = .ok m') :
    m'.byLogical = pairs.foldl (fun d p => d.insert p.1 p.2) m.byLogical := by
  induction pairs generalizing m with
  | nil =>
      cases h
      rfl
  | cons p pairs ih =>
      rw [List.foldlM_cons] at h
      obtain ⟨next, hextend, hrest⟩ := Success.bind_eq_ok.mp h
      obtain ⟨-, rfl⟩ := extend_eq_ok.mp hextend
      exact ih hrest

/-- The mapping of a dictionary has the dictionary in it. -/
theorem byLogical_of_ofDict {d : Dict String String} (h : ofDict d = .ok m) : m.byLogical = d :=
  (byLogical_of_foldlM h).trans d.ofList_entries

/-- Either name of a pair leads to the other. -/
def Inverse (m : DisplayNames) : Prop :=
  ∀ l d, m.displayFor? l = some d ↔ m.logicalFor? d = some l

theorem Inverse.bind (h : m.Inverse) (hfree : m.Free logical display) :
    (m.bind logical display).Inverse := by
  intro l d
  rw [displayFor?_bind, logicalFor?_bind]
  by_cases hl : l = logical
  · subst hl
    by_cases hd : d = display
    · simp [hd]
    · -- the column has got another display name, and `d` has been taken out if it was the former
      have hleft : display ≠ d := fun he => hd he.symm
      by_cases hold : m.displayFor? l = some d
      · simp [hd, hold, hleft]
      · have hno : m.logicalFor? d ≠ some l := fun he => hold ((h l d).mpr he)
        simp [hd, hold, hno, hleft]
  · by_cases hd : d = display
    · subst hd
      have hno : m.displayFor? l ≠ some d := fun he => hl (hfree l ((h l d).mp he))
      simpa [hl, hno] using fun he : logical = l => hl he.symm
    · by_cases hold : m.displayFor? logical = some d
      · -- `d` was the former display name, so it was nobody else's
        have hno : m.displayFor? l ≠ some d := by
          intro he
          have hboth := ((h l d).mp he).symm.trans ((h logical d).mp hold)
          exact hl (Option.some.inj hboth)
        simp [hl, hd, hold, hno]
      · simpa [hl, hd, hold] using h l d

theorem Built.inverse (h : m.Built) : m.Inverse := by
  induction h with
  | empty =>
      intro l d
      constructor <;>
      · intro hno
        cases hno
  | @insert m logical display _ ih =>
      rcases m.free_or_taken logical display with hfree | ⟨first, hfirst, hne⟩
      · rw [insert_of_free hfree]
        exact ih.bind hfree
      · rw [insert_of_taken hfirst hne]
        exact ih

/-- The two directions hold the same pairs, so neither has more than the other. -/
theorem Inverse.size_byDisplay (h : m.Inverse) : m.byDisplay.size = m.size := by
  have hnodup : ∀ d : Dict String String, d.entries.Nodup := fun d => .of_map _ d.nodup_keys
  have hperm : m.byDisplay.entries.Perm (m.byLogical.entries.map Prod.swap) := by
    rw [List.perm_ext_iff_of_nodup (hnodup _) ((hnodup _).map Prod.swap_injective)]
    rintro ⟨d, l⟩
    rw [Dict.mem_entries, List.mem_map]
    constructor
    · intro hd
      exact ⟨(l, d), Dict.mem_entries.mpr ((h l d).mpr hd), rfl⟩
    · rintro ⟨pair, hmem, heq⟩
      obtain rfl : pair = (l, d) := Prod.swap_injective heq
      exact (h l d).mp (Dict.mem_entries.mp hmem)
  exact hperm.length_eq.trans (List.length_map ..)

/-! ## Any inserts -/

/-- The mapping after inserts one after the other, from one without pairs. -/
def ofInserts (pairs : List (String × String)) : DisplayNames :=
  pairs.foldl (fun m pair => (m.insert pair.1 pair.2).2) {}

theorem ofInserts_concat (pairs : List (String × String)) (logical display : String) :
    ofInserts (pairs ++ [(logical, display)]) = ((ofInserts pairs).insert logical display).2 :=
  List.foldl_append

theorem built_ofInserts (pairs : List (String × String)) : (ofInserts pairs).Built := by
  suffices ∀ m : DisplayNames, m.Built →
      (pairs.foldl (fun m pair => (m.insert pair.1 pair.2).2) m).Built from this {} .empty
  induction pairs with
  | nil => exact fun _ h => h
  | cons pair pairs ih =>
      intro m h
      exact ih _ (h.insert pair.1 pair.2)

/-- `m'` is `m` with one column bound anew. -/
structure Rebinds (m : DisplayNames) (logical display : String) (m' : DisplayNames) : Prop where
  /-- The column and its display name lead to each other. -/
  bound : m'.displayFor? logical = some display ∧ m'.logicalFor? display = some logical
  /-- The display name it had is nobody's, and may be given to any column. -/
  released : ∀ old, m.displayFor? logical = some old → old ≠ display →
    m'.logicalFor? old = none ∧ ∀ other, (m'.insert other old).1 = .ok ()
  /-- The other columns have the display names they had. -/
  columns : ∀ l, l ≠ logical → m'.displayFor? l = m.displayFor? l
  /-- The other display names belong to the columns they belonged to. -/
  displays : ∀ d, d ≠ display → m.displayFor? logical ≠ some d → m'.logicalFor? d = m.logicalFor? d

theorem rebinds_of_insert (h : (m.insert logical display).1 = .ok ()) :
    m.Rebinds logical display (m.insert logical display).2 := by
  rw [insert_of_free (insert_eq_ok.mp h)]
  constructor
  · rw [displayFor?_bind, logicalFor?_bind, if_pos rfl, if_pos rfl]
    exact ⟨rfl, rfl⟩
  · intro old hold hne
    have hnone : (m.bind logical display).logicalFor? old = none := by
      rw [logicalFor?_bind, if_neg hne, if_pos hold]
    refine ⟨hnone, fun other => insert_eq_ok.mpr fun first hfirst => ?_⟩
    cases hnone.symm.trans hfirst
  · intro l hl
    rw [displayFor?_bind, if_neg hl]
  · intro d hd hold
    rw [logicalFor?_bind, if_neg hd, if_neg hold]

/-- **A bijection.**  After any inserts the two directions are inverse to each other, and each has
as many pairs as the mapping.  One more insert is refused iff the display name belongs to another
column, which the refusal names, and then nothing has changed.  Otherwise it binds the column,
frees the display name that the column had, and leaves every other pair as it was. -/
theorem inserts_keep_bijection (pairs : List (String × String)) :
    (∀ l d, (ofInserts pairs).displayFor? l = some d ↔ (ofInserts pairs).logicalFor? d = some l) ∧
    (ofInserts pairs).byLogical.size = (ofInserts pairs).size ∧
    (ofInserts pairs).byDisplay.size = (ofInserts pairs).size ∧
    ∀ logical display,
      (∀ e, ((ofInserts pairs).insert logical display).1 = .error e ↔
        ∃ first, (ofInserts pairs).logicalFor? display = some first ∧ first ≠ logical ∧
          e = ⟨display, first, logical⟩) ∧
      (∀ e, ((ofInserts pairs).insert logical display).1 = .error e →
        ((ofInserts pairs).insert logical display).2 = ofInserts pairs ∧
        ofInserts (pairs ++ [(logical, display)]) = ofInserts pairs) ∧
      (((ofInserts pairs).insert logical display).1 = .ok () →
        ofInserts (pairs ++ [(logical, display)]) =
          ((ofInserts pairs).insert logical display).2 ∧
        (ofInserts pairs).Rebinds logical display
          ((ofInserts pairs).insert logical display).2) := by
  have hinverse := (built_ofInserts pairs).inverse
  refine ⟨hinverse, rfl, hinverse.size_byDisplay, fun logical display => ⟨?_, ?_, ?_⟩⟩
  · intro e
    exact insert_eq_error
  · intro e h
    obtain ⟨first, hfirst, hne, -⟩ := insert_eq_error.mp h
    have hsame : ((ofInserts pairs).insert logical display).2 = ofInserts pairs := by
      rw [insert_of_taken hfirst hne]
    exact ⟨hsame, (ofInserts_concat pairs logical display).trans hsame⟩
  · intro h
    exact ⟨ofInserts_concat pairs logical display, rebinds_of_insert h⟩

end DisplayNames

/-! ## A column that is renamed

`Title` is given up by one column and taken by another, which may not have `Name`. -/

namespace Sample

def renamed : List (String × String) :=
  [("cr_title", "Title"), ("cr_name", "Title"), ("cr_title", "Name"), ("cr_name", "Title")]

theorem renamed_keeps_bijection :
    (DisplayNames.ofInserts renamed).logicalFor? "Title" = some "cr_name" ∧
      (DisplayNames.ofInserts renamed).displayFor? "cr_name" = some "Title" ∧
      (DisplayNames.ofInserts renamed).byDisplay.size = 2 ∧
      ((DisplayNames.ofInserts renamed).insert "cr_name" "Name").1 =
        .error ⟨"Name", "cr_title", "cr_name"⟩ ∧
      DisplayNames.ofInserts (renamed ++ [("cr_name", "Name")]) = DisplayNames.ofInserts renamed := by
  obtain ⟨hinverse, -, hsize, hinsert⟩ := DisplayNames.inserts_keep_bijection renamed
  obtain ⟨hrefused, hunchanged, -⟩ := hinsert "cr_name" "Name"
  have htitle : (DisplayNames.ofInserts renamed).logicalFor? "Title" = some "cr_name" := rfl
  have herror := (hrefused ⟨"Name", "cr_title", "cr_name"⟩).mpr ⟨"cr_title", rfl, by decide, rfl⟩
  exact ⟨htitle, (hinverse _ _).mpr htitle, hsize, herror, (hunchanged _ herror).2⟩

end Sample

end Delegability
