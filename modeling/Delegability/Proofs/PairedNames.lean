/-
# `Delegability.Proofs.PairedNames` — mappings made of a dictionary

A dictionary from logical to display names becomes a mapping by one insert for each entry, in the
order of the logical names.  An insert is refused if its display name has come before:

    ofDict d = m         iff   no two columns of `d` have one display name; then `d` is what `m` holds
    ofDict d = refused   at the least column whose display name a smaller column has

The converse of the first line is that a mapping which has been built is determined by its
dictionary (`Built.ofDict_byLogical`): the way back from display names adds nothing.
-/
import Delegability.Proofs.DisplayNames

namespace Delegability

namespace DisplayNames

variable {m m' : DisplayNames} {es : List (String × String)} {d : Dict String String}
  {e : AmbiguousDisplayName}

/-! ## Lists of pairs

No column comes twice, so each insert binds a column that had no display name. -/

theorem nodup_snd_iff (hkeys : (es.map Prod.fst).Nodup) :
    (es.map Prod.snd).Nodup ↔ ∀ l l' x, (l, x) ∈ es → (l', x) ∈ es → l = l' := by
  constructor
  · intro h l l' x hl hl'
    exact congrArg Prod.fst (List.inj_on_of_nodup_map h hl hl' rfl)
  · intro h
    rw [List.Nodup, List.pairwise_map] at hkeys ⊢
    refine hkeys.imp_of_mem ?_
    rintro ⟨l, x⟩ ⟨l', x'⟩ hl hl' hne heq
    obtain rfl : x = x' := heq
    exact hne (h l l' x hl hl')

theorem logicalFor?_of_ofPairs (hkeys : (es.map Prod.fst).Nodup) (h : ofPairs es = .ok m)
    (l x : String) : m.logicalFor? x = some l ↔ (l, x) ∈ es := by
  have hdict : m.byLogical = .ofList es := byLogical_of_foldlM h
  rw [← (built_of_ofPairs h).inverse l x, displayFor?, hdict]
  exact Dict.get?_ofList_of_nodup hkeys

/-- If all inserts come through, no display name has come twice either. -/
theorem nodup_of_ofPairs (hkeys : (es.map Prod.fst).Nodup) (h : ofPairs es = .ok m) :
    (es.map Prod.snd).Nodup := by
  refine (nodup_snd_iff hkeys).mpr fun l l' x hl hl' => ?_
  have hback := (logicalFor?_of_ofPairs hkeys h l x).mpr hl
  exact Option.some.inj (hback.symm.trans ((logicalFor?_of_ofPairs hkeys h l' x).mpr hl'))

/-- The first display name that comes twice: the pairs before it have different ones. -/
def FirstRepeat (es : List (String × String)) (e : AmbiguousDisplayName) : Prop :=
  ∃ before after, es = before ++ (e.second, e.display) :: after ∧
    (before.map Prod.snd).Nodup ∧ (e.first, e.display) ∈ before

theorem firstRepeat_of_error (hkeys : (es.map Prod.fst).Nodup) (h : ofPairs es = .error e) :
    FirstRepeat es e := by
  obtain ⟨before, p, after, m, rfl, hbefore, hextend⟩ := Success.foldlM_eq_error.mp h
  have hkeys' : (before.map Prod.fst).Nodup :=
    .sublist ((List.sublist_append_left before _).map _) hkeys
  obtain ⟨first, hfirst, -, rfl⟩ := insert_eq_error.mp (extend_eq_error.mp hextend)
  exact ⟨before, after, rfl, nodup_of_ofPairs hkeys' hbefore,
    (logicalFor?_of_ofPairs hkeys' hbefore first p.2).mp hfirst⟩

theorem exists_ofPairs_of_nodup (hkeys : (es.map Prod.fst).Nodup)
    (hdisplays : (es.map Prod.snd).Nodup) : ∃ m, ofPairs es = .ok m := by
  cases h : ofPairs es with
  | ok m => exact ⟨m, rfl⟩
  | error e =>
      obtain ⟨before, after, rfl, -, hmem⟩ := firstRepeat_of_error hkeys h
      rw [List.map_append] at hdisplays
      have hdiffer := (List.nodup_append.mp hdisplays).2.2
      exact absurd rfl (hdiffer e.display (List.mem_map_of_mem hmem) e.display List.mem_cons_self)

/-- Inserts are refused at the first display name that comes twice, and nowhere else. -/
theorem ofPairs_eq_error (hkeys : (es.map Prod.fst).Nodup) :
    ofPairs es = .error e ↔ FirstRepeat es e := by
  refine ⟨firstRepeat_of_error hkeys, ?_⟩
  rintro ⟨before, after, rfl, hdisplays, hmem⟩
  have hkeys' : (before.map Prod.fst).Nodup :=
    .sublist ((List.sublist_append_left before _).map _) hkeys
  obtain ⟨m, hm⟩ := exists_ofPairs_of_nodup hkeys' hdisplays
  refine Success.foldlM_eq_error.mpr ⟨before, _, after, m, rfl, hm, ?_⟩
  rw [extend_eq_error, insert_eq_error]
  refine ⟨e.first, (logicalFor?_of_ofPairs hkeys' hm _ _).mpr hmem, ?_, rfl⟩
  -- the column that has the display name is another one: no column comes twice
  intro hsame
  rw [List.map_append] at hkeys
  have hdiffer := (List.nodup_append.mp hkeys).2.2
  exact hdiffer e.first (List.mem_map_of_mem hmem) e.second List.mem_cons_self hsame

/-! ## Dictionaries

The entries are in the order of the logical names, so what comes before is what is smaller. -/

theorem mem_before_iff {before after : List (String × String)} {k x : String}
    (h : d.entries = before ++ (k, x) :: after) {a : String × String} :
    a ∈ before ↔ a ∈ d.entries ∧ compare a.1 k = .lt := by
  have hsorted := d.sorted
  rw [h, List.pairwise_append, List.pairwise_cons] at hsorted
  obtain ⟨-, ⟨hafter, -⟩, hbefore⟩ := hsorted
  rw [h, List.mem_append, List.mem_cons]
  constructor
  · intro ha
    exact ⟨Or.inl ha, hbefore a ha _ List.mem_cons_self⟩
  · rintro ⟨ha | rfl | ha, hlt⟩
    · exact ha
    · have hself : compare k k = .eq := Std.ReflCmp.compare_self
      cases hself.symm.trans hlt
    · have hgt : compare a.1 k = .gt := Std.OrientedCmp.gt_of_lt (hafter a ha)
      cases hgt.symm.trans hlt

/-- A smaller column has the display name of the column. -/
def Repeats (d : Dict String String) (logical : String) : Prop :=
  ∃ smaller x, compare smaller logical = .lt ∧ d.get? smaller = some x ∧ d.get? logical = some x

/-- The refusal is about the least column whose display name a smaller one has, and names both. -/
structure LeastRepeat (d : Dict String String) (e : AmbiguousDisplayName) : Prop where
  first : d.get? e.first = some e.display
  second : d.get? e.second = some e.display
  smaller : compare e.first e.second = .lt
  least : ∀ logical, Repeats d logical → compare e.second logical ≠ .gt

theorem firstRepeat_entries : FirstRepeat d.entries e ↔ LeastRepeat d e := by
  constructor
  · rintro ⟨before, after, hsplit, hdisplays, hmem⟩
    obtain ⟨hfirst, hlt⟩ := (mem_before_iff hsplit).mp hmem
    have hsecond : (e.second, e.display) ∈ d.entries := by
      rw [hsplit]
      exact List.mem_append_right before List.mem_cons_self
    refine ⟨Dict.mem_entries.mp hfirst, Dict.mem_entries.mp hsecond, hlt, ?_⟩
    rintro logical ⟨smaller, x, hsmaller, hx, hx'⟩ hgt
    -- a column before the refused one would have come twice before it
    have hlogical : compare logical e.second = .lt := Std.OrientedCmp.lt_of_gt hgt
    have hmem' := (mem_before_iff hsplit).mpr ⟨Dict.mem_entries.mpr hx', hlogical⟩
    have hmem := (mem_before_iff hsplit).mpr
      ⟨Dict.mem_entries.mpr hx, Std.TransCmp.lt_trans hsmaller hlogical⟩
    obtain rfl : smaller = logical :=
      congrArg Prod.fst (List.inj_on_of_nodup_map hdisplays hmem hmem' rfl)
    have hself : compare smaller smaller = .eq := Std.ReflCmp.compare_self
    cases hself.symm.trans hsmaller
  · rintro ⟨hfirst, hsecond, hlt, hleast⟩
    obtain ⟨before, after, hsplit⟩ := List.append_of_mem (Dict.mem_entries.mpr hsecond)
    refine ⟨before, after, hsplit, ?_, (mem_before_iff hsplit).mpr
      ⟨Dict.mem_entries.mpr hfirst, hlt⟩⟩
    have hsorted := d.sorted
    rw [hsplit] at hsorted
    rw [List.Nodup, List.pairwise_map]
    refine (List.pairwise_append.mp hsorted).1.imp_of_mem ?_
    rintro ⟨l, x⟩ ⟨l', x'⟩ hl hl' hll' heq
    obtain rfl : x = x' := heq
    obtain ⟨hl, -⟩ := (mem_before_iff hsplit).mp hl
    obtain ⟨hl', hlt'⟩ := (mem_before_iff hsplit).mp hl'
    exact hleast l' ⟨l, x, hll', Dict.mem_entries.mp hl, Dict.mem_entries.mp hl'⟩
      (Std.OrientedCmp.gt_of_lt hlt')

/-- No two columns have one display name. -/
def Injective (d : Dict String String) : Prop :=
  ∀ l l' x, d.get? l = some x → d.get? l' = some x → l = l'

theorem exists_ofDict_iff : (∃ m, ofDict d = .ok m) ↔ Injective d := by
  have hdisplays := nodup_snd_iff d.nodup_keys
  simp only [Dict.mem_entries] at hdisplays
  refine Iff.trans ⟨?_, exists_ofPairs_of_nodup d.nodup_keys⟩ hdisplays
  rintro ⟨m, h⟩
  exact nodup_of_ofPairs d.nodup_keys h

/-! ## There and back -/

theorem Inverse.ext (h : m.Inverse) (h' : m'.Inverse) (heq : m.byLogical = m'.byLogical) :
    m = m' := by
  have hdisplay : m.byDisplay = m'.byDisplay := by
    refine Dict.ext_get? fun x => Option.ext fun l => ?_
    rw [← logicalFor?, ← logicalFor?, ← h l x, ← h' l x, displayFor?, displayFor?, heq]
  cases m
  cases m'
  cases heq
  cases hdisplay
  rfl

/-- A mapping that has been built is what its own dictionary makes. -/
theorem Built.ofDict_byLogical (h : m.Built) : ofDict m.byLogical = .ok m := by
  have hinjective : Injective m.byLogical := by
    intro l l' x hl hl'
    have hback := (h.inverse l x).mp hl
    exact Option.some.inj (hback.symm.trans ((h.inverse l' x).mp hl'))
  obtain ⟨m', hm'⟩ := exists_ofDict_iff.mpr hinjective
  have hsame : m' = m := (built_of_ofPairs hm').inverse.ext h.inverse (byLogical_of_ofDict hm')
  rw [hm', hsame]

/-- **Mappings of dictionaries.**  A dictionary makes a mapping iff no two of its columns have one
display name, and the mapping then holds that dictionary.  Otherwise the refusal is about the least
column whose display name a smaller column has; it names both and the display name.  Whatever
inserts have built is made again from the dictionary that it holds. -/
theorem ofDict_takes_bijections :
    (∀ d : Dict String String,
      ((∃ m, ofDict d = .ok m) ↔
        ∀ l l' x, d.get? l = some x → d.get? l' = some x → l = l') ∧
      (∀ m, ofDict d = .ok m → m.byLogical = d) ∧
      ∀ e, ofDict d = .error e ↔ LeastRepeat d e) ∧
    ∀ pairs, ofDict (ofInserts pairs).byLogical = .ok (ofInserts pairs) := by
  refine ⟨fun d => ⟨exists_ofDict_iff, fun m h => byLogical_of_ofDict h, fun e => ?_⟩,
    fun pairs => (built_ofInserts pairs).ofDict_byLogical⟩
  exact (ofPairs_eq_error d.nodup_keys).trans firstRepeat_entries

end DisplayNames

/-! ## Three columns with one display name

The second in order is refused, although the third would be too. -/

namespace Sample

def sameTitle : Dict String String :=
  .ofList [("c", "Title"), ("a", "Name"), ("d", "Title"), ("b", "Title")]

theorem sameTitle_refused :
    DisplayNames.ofDict sameTitle = .error ⟨"Title", "b", "c"⟩ ∧
      DisplayNames.LeastRepeat sameTitle ⟨"Title", "b", "c"⟩ ∧
      ¬ (∀ l l' x, sameTitle.get? l = some x → sameTitle.get? l' = some x → l = l') := by
  obtain ⟨htakes, -⟩ := DisplayNames.ofDict_takes_bijections
  obtain ⟨hok, -, herror⟩ := htakes sameTitle
  have hrefused : DisplayNames.ofDict sameTitle = .error ⟨"Title", "b", "c"⟩ := rfl
  refine ⟨hrefused, (herror _).mp hrefused, fun hinjective => ?_⟩
  obtain ⟨m, hm⟩ := hok.mpr hinjective
  cases hrefused.symm.trans hm

end Sample

end Delegability
