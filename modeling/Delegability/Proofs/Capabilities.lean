/-
# `Delegability.Proofs.Capabilities` — sets of capabilities by their members

The questions that rules ask of a set are answered on its bits.  Here each is
said by members, and the set of more members answers yes more often:

* `meets_iff`: two sets meet in a member of both;
* `hasAll_iff`: a set has all of another that has something, member by member;
* `meets_mono`, `hasAll_mono`: a larger set loses no answer.

Outside, a set is the list of its names.  A list is read name by name, up to the first text that is
no name (`ofNames_eq_error`), and makes the set that has the same names (`ofNames_eq_ok`).
-/
import Delegability.Strategy
import Delegability.Proofs.Success

namespace Delegability

namespace CapabilitySet

/-- Every member of `s` is one of `t`. -/
protected def Subset (s t : CapabilitySet) : Prop := ∀ c, s.has c = true → t.has c = true

instance : HasSubset CapabilitySet := ⟨CapabilitySet.Subset⟩

theorem isEmpty_iff {s : CapabilitySet} : s.isEmpty = true ↔ ∀ c, s.has c = false := by
  constructor
  · intro h c
    have hs : s = none := by
      obtain ⟨bits⟩ := s
      exact congrArg CapabilitySet.mk (by simpa [isEmpty] using h)
    rw [hs, has_none]
  · intro h
    have hs : s = none := ext_has fun c => by rw [h c, has_none]
    rw [hs]
    rfl

theorem not_isEmpty_iff {s : CapabilitySet} : s.isEmpty = false ↔ ∃ c, s.has c = true := by
  rw [← Bool.not_eq_true, isEmpty_iff]
  simp

/-- Two sets meet in a member of both. -/
theorem meets_iff {s t : CapabilitySet} :
    s.meets t = true ↔ ∃ c, s.has c = true ∧ t.has c = true := by
  simp [meets, not_isEmpty_iff]

/-- A set has all of another if that has something, and every member of it. -/
theorem hasAll_iff {s t : CapabilitySet} :
    s.hasAll t = true ↔ (∃ c, t.has c = true) ∧ t ⊆ s := by
  have hbits : s.bits &&& t.bits = t.bits ↔ t ⊆ s := by
    constructor
    · intro h c hc
      have hi : s ∩ t = t := congrArg CapabilitySet.mk h
      have := congrArg (fun u => has u c) hi
      simpa [hc] using this
    · intro h
      have hi : s ∩ t = t := ext_has fun c => by
        rw [has_inter]
        cases hc : t.has c with
        | false => exact Bool.and_false _
        | true => rw [h c hc]; rfl
      exact congrArg CapabilitySet.bits hi
  simp [hasAll, not_isEmpty_iff, hbits]

/-- To have all of a single capability is to have it. -/
@[simp]
theorem hasAll_single (s : CapabilitySet) (c : Capability) : s.hasAll (single c) = s.has c := by
  rw [Bool.eq_iff_iff, hasAll_iff]
  constructor
  · rintro ⟨-, h⟩
    exact h c (by simp)
  · intro h
    refine ⟨⟨c, by simp⟩, fun d hd => ?_⟩
    have : c = d := by simpa using hd
    exact this ▸ h

theorem meets_mono {s s' t : CapabilitySet} (h : s ⊆ s') (hm : s.meets t = true) :
    s'.meets t = true := by
  obtain ⟨c, hs, ht⟩ := meets_iff.mp hm
  exact meets_iff.mpr ⟨c, h c hs, ht⟩

theorem hasAll_mono {s s' t : CapabilitySet} (h : s ⊆ s') (ha : s.hasAll t = true) :
    s'.hasAll t = true := by
  obtain ⟨hne, hsub⟩ := hasAll_iff.mp ha
  exact hasAll_iff.mpr ⟨hne, fun c hc => h c (hsub c hc)⟩

end CapabilitySet

/-! ## As names -/

namespace Capability

/-- The names there are, in the order of declaration. -/
def knownNames : List String := all.map name

theorem ofName?_name (c : Capability) : ofName? c.name = some c := by
  cases c <;> decide

theorem name_of_ofName? {n : String} {c : Capability} (h : ofName? n = some c) : c.name = n := by
  simpa using List.find?_some h

/-- Different capabilities have different names. -/
theorem name_inj {c d : Capability} (h : c.name = d.name) : c = d := by
  have hfound : some c = some d := by rw [← ofName?_name c, h, ofName?_name]
  exact Option.some.inj hfound

theorem mem_knownNames {n : String} : n ∈ knownNames ↔ ∃ c : Capability, c.name = n := by
  constructor
  · intro h
    obtain ⟨c, -, hc⟩ := List.mem_map.mp h
    exact ⟨c, hc⟩
  · rintro ⟨c, rfl⟩
    exact List.mem_map_of_mem c.mem_all

theorem ofName?_eq_none {n : String} : ofName? n = none ↔ n ∉ knownNames := by
  rw [mem_knownNames]
  constructor
  · rintro h ⟨c, rfl⟩
    cases h.symm.trans (ofName?_name c)
  · intro h
    cases hc : ofName? n with
    | none => rfl
    | some c => exact absurd ⟨c, name_of_ofName? hc⟩ h

end Capability

namespace CapabilitySet

variable {ns : List String} {s : CapabilitySet} {n : String}

/-- Names are looked up in turn, and the first that is none ends it. -/
theorem ofNames_eq_error :
    ofNames ns = .error n ↔ ns.find? (· ∉ Capability.knownNames) = some n := by
  induction ns with
  | nil => exact iff_of_false (fun h => by cases h) (fun h => by cases h)
  | cons m ns ih =>
      rw [ofNames, List.find?_cons]
      cases hm : Capability.ofName? m with
      | none =>
          have hunknown := Capability.ofName?_eq_none.mp hm
          simp [hunknown]
      | some c =>
          have hknown := Capability.mem_knownNames.mpr ⟨c, Capability.name_of_ofName? hm⟩
          simpa [hknown, Success.map_eq_error] using ih

theorem exists_ofNames_iff :
    (∃ s, ofNames ns = .ok s) ↔ ∀ n ∈ ns, n ∈ Capability.knownNames := by
  constructor
  · rintro ⟨s, h⟩
    cases hfind : ns.find? (· ∉ Capability.knownNames) with
    | none => simpa using hfind
    | some m => cases h.symm.trans (ofNames_eq_error.mpr hfind)
  · intro h
    cases hns : ofNames ns with
    | ok s => exact ⟨s, rfl⟩
    | error m =>
        have hm := ofNames_eq_error.mp hns
        exact absurd (h m (List.mem_of_find?_eq_some hm)) (by simpa using List.find?_some hm)

/-- The set of a list of names has what the list names. -/
theorem has_of_ofNames (h : ofNames ns = .ok s) (c : Capability) :
    s.has c = true ↔ c.name ∈ ns := by
  induction ns generalizing s with
  | nil =>
      cases h
      simp
  | cons m ns ih =>
      rw [ofNames] at h
      cases hm : Capability.ofName? m with
      | none =>
          rw [hm] at h
          cases h
      | some d =>
          rw [hm] at h
          obtain ⟨t, ht, rfl⟩ := Success.map_eq_ok.mp h
          have hname : d = c ↔ c.name = m := by
            rw [← Capability.name_of_ofName? hm]
            exact ⟨fun hd => hd ▸ rfl, fun hn => (Capability.name_inj hn).symm⟩
          rw [has_union, has_single, Bool.or_eq_true, decide_eq_true_eq, ih ht, hname,
            List.mem_cons]

theorem mem_names : n ∈ s.names ↔ ∃ c, s.has c = true ∧ c.name = n := by
  unfold names toList
  simp [Capability.mem_all]

/-- A list makes a set iff it has the names of the set, in any order and as often as it likes. -/
theorem ofNames_eq_ok : ofNames ns = .ok s ↔ ∀ n, n ∈ ns ↔ n ∈ s.names := by
  constructor
  · intro h n
    rw [mem_names]
    constructor
    · intro hn
      obtain ⟨c, rfl⟩ := Capability.mem_knownNames.mp (exists_ofNames_iff.mp ⟨s, h⟩ n hn)
      exact ⟨c, (has_of_ofNames h c).mpr hn, rfl⟩
    · rintro ⟨c, hc, rfl⟩
      exact (has_of_ofNames h c).mp hc
  · intro h
    have hknown : ∀ n ∈ ns, n ∈ Capability.knownNames := by
      intro n hn
      obtain ⟨c, -, hc⟩ := mem_names.mp ((h n).mp hn)
      exact Capability.mem_knownNames.mpr ⟨c, hc⟩
    obtain ⟨t, ht⟩ := exists_ofNames_iff.mpr hknown
    have hts : t = s := by
      refine ext_has fun c => ?_
      rw [Bool.eq_iff_iff, has_of_ofNames ht, h, mem_names]
      constructor
      · rintro ⟨d, hd, hname⟩
        exact Capability.name_inj hname ▸ hd
      · intro hc
        exact ⟨c, hc, rfl⟩
    rw [ht, hts]

/-- The names of a set make the set. -/
theorem ofNames_names (s : CapabilitySet) : ofNames s.names = .ok s :=
  ofNames_eq_ok.mpr fun _ => Iff.rfl

end CapabilitySet

end Delegability
