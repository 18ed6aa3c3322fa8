/-
# `Delegability.Proofs.Dotted` — columns under dotted forms

A path is a list of names, its dotted form is one text.  Going from the one to the other
loses what a name with a dot in it was, and the row itself looks like an empty name:

    parse s = p     iff     p is clean  and  dotted p = s

where a path is clean if it has a name and none of its names holds a dot.  So on clean paths
the dotted form is as good as the path.

A dictionary of columns by path becomes one by dotted form and back.  On the way out columns
can meet under one form, and then the greatest path is the one that stays
(`get?_dottedColumns`).  On the way back nothing meets (`columnsOfDotted_perm`).
-/
import Mathlib.Data.List.Nodup
import Delegability.Format.Metadata
import Delegability.Proofs.Success

namespace Delegability

namespace Name

theorem eq_of_text {a b : Name} (h : a.text = b.text) : a = b := by
  cases a
  cases b
  cases h
  rfl

theorem ofText_text (n : Name) : Name.ofText n.text = .ok n := by
  unfold ofText
  rw [dif_pos n.valid]

theorem text_of_ofText {s : String} {n : Name} (h : Name.ofText s = .ok n) : n.text = s := by
  unfold ofText at h
  split at h
  · cases h
    rfl
  · split at h <;> cases h

end Name

/-! ## Paths -/

/-- No piece of a text holds the character it was cut at. -/
theorem Text.not_mem_of_mem_splitOn {sep : Char} {cs piece : List Char}
    (h : piece ∈ cs.splitOn sep) : sep ∉ piece := by
  induction cs generalizing piece with
  | nil =>
      obtain rfl : piece = [] := List.mem_singleton.mp h
      exact List.not_mem_nil
  | cons c cs ih =>
      rw [List.splitOn_cons_eq_if_modifyHead] at h
      split at h
      next =>
        rcases List.mem_cons.mp h with rfl | h
        · exact List.not_mem_nil
        · exact ih h
      next hc =>
        obtain ⟨p, ps, hps⟩ := List.exists_cons_of_ne_nil (List.splitOn_ne_nil sep cs)
        rw [hps] at h ih
        rcases List.mem_cons.mp h with rfl | h
        · intro hmem
          rcases List.mem_cons.mp hmem with rfl | hmem
          · exact hc (beq_self_eq_true _)
          · exact ih List.mem_cons_self hmem
        · exact ih (List.mem_cons_of_mem p h)

namespace ColumnPath

theorem compare_self (p : ColumnPath) : compare p p = .eq := Std.ReflCmp.compare_self

theorem toList_dotted (p : ColumnPath) :
    p.dotted.toList = ['.'].intercalate (p.segments.map fun n => n.text.toList) := by
  rw [dotted, String.toList_intercalate, List.map_map]
  rfl

/-- It is not the row itself, and none of its names holds a dot. -/
def Clean (p : ColumnPath) : Prop := p.segments ≠ [] ∧ ∀ n ∈ p.segments, '.' ∉ n.text.toList

/-- The paths that can be parsed are the clean ones, each from its dotted form. -/
theorem parse_eq_ok {s : String} {p : ColumnPath} :
    parse s = .ok p ↔ p.Clean ∧ p.dotted = s := by
  rw [← String.toList_inj, toList_dotted]
  constructor
  · intro h
    obtain ⟨ns, hns, rfl⟩ := Success.map_eq_ok.mp h
    have hpieces : ns.map (fun n => n.text.toList) = s.toList.splitOn '.' :=
      Success.map_of_mapM hns fun q n hn => by
        rw [Name.text_of_ofText hn, String.toList_ofList]
    refine ⟨⟨?_, ?_⟩, ?_⟩
    · rintro rfl
      exact List.splitOn_ne_nil '.' s.toList hpieces.symm
    · intro n hn
      have hmem : n.text.toList ∈ s.toList.splitOn '.' := by
        rw [← hpieces]
        exact List.mem_map_of_mem hn
      exact Text.not_mem_of_mem_splitOn hmem
    · show ['.'].intercalate (ns.map fun n => n.text.toList) = s.toList
      rw [hpieces, List.intercalate_splitOn]
  · rintro ⟨⟨hne, hdots⟩, hs⟩
    have hpieces : s.toList.splitOn '.' = p.segments.map fun n => n.text.toList := by
      rw [← hs]
      refine List.splitOn_intercalate '.' (List.forall_mem_map.mpr hdots) ?_
      exact fun h => hne (List.map_eq_nil_iff.mp h)
    unfold parse
    rw [hpieces, Success.mapM_map_eq_ok fun n _ => ?_]
    · rfl
    · rw [String.ofList_toList]
      exact n.ofText_text

theorem Clean.eq_of_dotted {p q : ColumnPath} (hp : p.Clean) (hq : q.Clean)
    (h : p.dotted = q.dotted) : p = q := by
  have hparse : parse q.dotted = .ok p := parse_eq_ok.mpr ⟨hp, h⟩
  rw [parse_eq_ok.mpr ⟨hq, rfl⟩] at hparse
  exact (Except.ok.inj hparse).symm

end ColumnPath

/-! ## Columns -/

namespace Facet

variable {columns : Dict ColumnPath ColumnSupport} {keyed : Dict String ColumnSupport}

/-- Under a dotted form stands the greatest of the paths that have it. -/
theorem get?_dottedColumns {k : String} {c : ColumnSupport} :
    (dottedColumns columns).get? k = some c ↔
      ∃ p, columns.get? p = some c ∧ p.dotted = k ∧
        ∀ q ∈ columns.keys, q.dotted = k → compare q p ≠ .gt := by
  unfold dottedColumns
  rw [Dict.get?_ofList_eq_some]
  constructor
  · rintro ⟨before, after, hsplit, hafter⟩
    obtain ⟨l₁, l₂, hentries, -, hl₂⟩ := List.map_eq_append_iff.mp hsplit
    obtain ⟨⟨p, c'⟩, l₃, rfl, hp, hl₃⟩ := List.map_eq_cons_iff.mp hl₂
    obtain ⟨rfl, rfl⟩ := Prod.mk.inj hp
    refine ⟨p, ?_, rfl, ?_⟩
    · rw [← Dict.mem_entries, hentries]
      exact List.mem_append_right l₁ List.mem_cons_self
    · intro q hq hqk
      obtain ⟨e, he, rfl⟩ := List.mem_map.mp hq
      have hsorted := columns.sorted
      rw [hentries] at he hsorted
      rcases List.mem_append.mp he with he | he
      · have hlt := (List.pairwise_append.mp hsorted).2.2 e he (p, c') List.mem_cons_self
        rw [hlt]
        exact Ordering.noConfusion
      rcases List.mem_cons.mp he with rfl | he
      · rw [ColumnPath.compare_self]
        exact Ordering.noConfusion
      · -- what comes later does not have this form
        have hmem : (e.1.dotted, e.2) ∈ after := by
          rw [← hl₃]
          exact List.mem_map.mpr ⟨e, he, rfl⟩
        exact absurd hqk (hafter _ hmem)
  · rintro ⟨p, hp, rfl, hgreatest⟩
    obtain ⟨l₁, l₂, hentries⟩ := List.append_of_mem (Dict.mem_entries.mpr hp)
    refine ⟨l₁.map fun e => (e.1.dotted, e.2), l₂.map fun e => (e.1.dotted, e.2), ?_, ?_⟩
    · rw [hentries, List.map_append, List.map_cons]
    · intro x hx hxk
      obtain ⟨e, he, rfl⟩ := List.mem_map.mp hx
      have hsorted := columns.sorted
      rw [hentries] at hsorted
      have hlt : compare p e.1 = .lt :=
        (List.pairwise_cons.mp (List.pairwise_append.mp hsorted).2.1).1 e he
      have hkey : e.1 ∈ columns.keys := by
        unfold Dict.keys
        rw [hentries]
        exact List.mem_map_of_mem (List.mem_append_right l₁ (List.mem_cons_of_mem _ he))
      exact hgreatest e.1 hkey hxk (Std.OrientedCmp.gt_of_lt hlt)

theorem mem_keys_dottedColumns {k : String} :
    k ∈ (dottedColumns columns).keys ↔ ∃ p ∈ columns.keys, p.dotted = k := by
  unfold dottedColumns Dict.keys
  rw [← Dict.keys, Dict.mem_keys_ofList, List.map_map, List.mem_map]
  constructor
  · rintro ⟨e, he, rfl⟩
    exact ⟨e.1, List.mem_map_of_mem he, rfl⟩
  · rintro ⟨p, hp, rfl⟩
    obtain ⟨e, he, rfl⟩ := List.mem_map.mp hp
    exact ⟨e, he, rfl⟩

/-- Columns that could be read are clean, and their dotted forms are the keys. -/
theorem columnsOfDotted_eq_ok (h : columnsOfDotted keyed = .ok columns) :
    ∃ es : List (ColumnPath × ColumnSupport), columns = .ofList es ∧
      (∀ e ∈ es, e.1.Clean) ∧ es.map (fun e => (e.1.dotted, e.2)) = keyed.entries := by
  unfold columnsOfDotted at h
  split at h
  next es hes =>
    refine ⟨es, (Except.ok.inj h).symm, ?_, ?_⟩
    · refine Success.forall_mem_of_mapM hes fun a b hab => ?_
      obtain ⟨p, hp, rfl⟩ := Success.map_eq_ok.mp hab
      exact (ColumnPath.parse_eq_ok.mp hp).1
    · refine Success.map_of_mapM hes fun a b hab => ?_
      obtain ⟨p, hp, rfl⟩ := Success.map_eq_ok.mp hab
      exact Prod.ext (ColumnPath.parse_eq_ok.mp hp).2 rfl
  next => cases h

theorem nodup_of_dotted {es : List (ColumnPath × ColumnSupport)}
    (h : es.map (fun e => (e.1.dotted, e.2)) = keyed.entries) : (es.map Prod.fst).Nodup := by
  have hkeys : (es.map Prod.fst).map ColumnPath.dotted = keyed.keys := by
    unfold Dict.keys
    rw [← h, List.map_map, List.map_map]
    rfl
  exact List.Nodup.of_map ColumnPath.dotted (hkeys ▸ keyed.nodup_keys)

/-- No two keys are read as one column: the columns are the keys, each with what stood
under it. -/
theorem columnsOfDotted_perm (h : columnsOfDotted keyed = .ok columns) :
    (columns.entries.map fun e => (e.1.dotted, e.2)).Perm keyed.entries := by
  obtain ⟨es, rfl, -, hes⟩ := columnsOfDotted_eq_ok h
  rw [← hes]
  exact (Dict.entries_ofList_perm (nodup_of_dotted hes)).map _

theorem get?_columnsOfDotted (h : columnsOfDotted keyed = .ok columns) {p : ColumnPath}
    {c : ColumnSupport} :
    columns.get? p = some c ↔ p.Clean ∧ keyed.get? p.dotted = some c := by
  obtain ⟨es, rfl, hclean, hes⟩ := columnsOfDotted_eq_ok h
  rw [Dict.get?_ofList_of_nodup (nodup_of_dotted hes), ← Dict.mem_entries, ← hes, List.mem_map]
  constructor
  · intro hmem
    exact ⟨hclean _ hmem, (p, c), hmem, rfl⟩
  · rintro ⟨hp, e, he, heq⟩
    obtain ⟨hdotted, rfl⟩ := Prod.mk.inj heq
    rw [← (hclean e he).eq_of_dotted hp hdotted]
    exact he

theorem clean_of_columnsOfDotted (h : columnsOfDotted keyed = .ok columns) :
    ∀ p ∈ columns.keys, p.Clean := by
  intro p hp
  obtain ⟨c, hc⟩ := Dict.mem_keys.mp hp
  exact ((get?_columnsOfDotted h).mp hc).1

theorem columnsOfDotted_of_keys (h : ∀ k ∈ keyed.keys, ∃ p, ColumnPath.parse k = .ok p) :
    ∃ columns, columnsOfDotted keyed = .ok columns := by
  obtain ⟨es, hes⟩ : ∃ es, keyed.entries.mapM (fun e => (ColumnPath.parse e.1).map (·, e.2)) =
      .ok es := Success.exists_mapM_eq_ok fun e he => by
    obtain ⟨p, hp⟩ := h e.1 (List.mem_map_of_mem he)
    exact ⟨(p, e.2), Success.map_eq_ok.mpr ⟨p, hp, rfl⟩⟩
  unfold columnsOfDotted
  rw [hes]
  exact ⟨_, rfl⟩

/-- Columns come back from their dotted forms iff their paths are clean. -/
theorem columnsOfDotted_dottedColumns :
    columnsOfDotted (dottedColumns columns) = .ok columns ↔ ∀ p ∈ columns.keys, p.Clean := by
  refine ⟨clean_of_columnsOfDotted, fun hclean => ?_⟩
  obtain ⟨columns', h⟩ : ∃ columns', columnsOfDotted (dottedColumns columns) = .ok columns' :=
    columnsOfDotted_of_keys fun k hk => by
      obtain ⟨p, hp, rfl⟩ := mem_keys_dottedColumns.mp hk
      exact ⟨p, ColumnPath.parse_eq_ok.mpr ⟨hclean p hp, rfl⟩⟩
  rw [h]
  refine congrArg Except.ok (Dict.ext_get? fun p => Option.ext fun c => ?_)
  rw [get?_columnsOfDotted h, get?_dottedColumns]
  constructor
  · rintro ⟨hp, q, hq, hdotted, -⟩
    have hqclean : q.Clean := hclean q (Dict.mem_keys.mpr ⟨c, hq⟩)
    rw [← hqclean.eq_of_dotted hp hdotted]
    exact hq
  · intro hp
    have hpclean : p.Clean := hclean p (Dict.mem_keys.mpr ⟨c, hp⟩)
    refine ⟨hpclean, p, hp, rfl, fun q hq hdotted => ?_⟩
    rw [(hclean q hq).eq_of_dotted hpclean hdotted, ColumnPath.compare_self]
    exact Ordering.noConfusion

end Facet

end Delegability
