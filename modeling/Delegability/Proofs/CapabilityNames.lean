/-
# `Delegability.Proofs.CapabilityNames` — a list of names is a set of capabilities

Outside, a set of capabilities is a list of names, and any list will do in which every text is a
name.  What becomes of the list is its set of names, and nothing else of it:

    ns  ↦  s        the names of s       those of ns, each once, in the order of declaration
                    s has c              the name of c is in ns
                    s meets t            ns and ms have a name in common
                    s ∪ t                ns ++ ms
                    s ∩ t                the names of ns that are in ms
    ns  ↦  fault    the first text of ns that is no name

All of it rests on `CapabilitySet.ofNames_eq_ok`: a list makes a set iff they have the same names.
Two sets are compared through their members, and two lists through what is in them; a name is the
name of one capability, so the two comparisons are one.
-/
import Delegability.Proofs.Documents

namespace Delegability

namespace CapabilitySet

variable {ns ms : List String} {s t : CapabilitySet}

/-- The names come back in the order of declaration, whatever the order they came in. -/
theorem names_of_ofNames (h : ofNames ns = .ok s) :
    s.names = Capability.knownNames.filter (· ∈ ns) := by
  have hhas : Capability.all.filter s.has = Capability.all.filter (·.name ∈ ns) := by
    refine List.filter_congr fun c _ => ?_
    rw [Bool.eq_iff_iff, has_of_ofNames h, decide_eq_true_eq]
  rw [names, toList, hhas, Capability.knownNames, List.filter_map]
  rfl

/-- Two lists make one set iff they name the same. -/
theorem ofNames_eq_iff (h : ofNames ns = .ok s) :
    ofNames ms = .ok s ↔ ∀ n, n ∈ ms ↔ n ∈ ns := by
  rw [ofNames_eq_ok] at h ⊢
  exact forall_congr' fun n => iff_congr Iff.rfl (h n).symm

theorem meets_of_ofNames (hs : ofNames ns = .ok s) (ht : ofNames ms = .ok t) :
    s.meets t = true ↔ ∃ n, n ∈ ns ∧ n ∈ ms := by
  rw [meets_iff]
  constructor
  · rintro ⟨c, hc, hc'⟩
    exact ⟨c.name, (has_of_ofNames hs c).mp hc, (has_of_ofNames ht c).mp hc'⟩
  · rintro ⟨n, hn, hn'⟩
    obtain ⟨c, hc, rfl⟩ := mem_names.mp ((ofNames_eq_ok.mp hs n).mp hn)
    exact ⟨c, hc, (has_of_ofNames ht c).mpr hn'⟩

theorem mem_names_union {n : String} : n ∈ (s ∪ t).names ↔ n ∈ s.names ∨ n ∈ t.names := by
  simp only [mem_names, has_union, Bool.or_eq_true, or_and_right, exists_or]

theorem mem_names_inter {n : String} : n ∈ (s ∩ t).names ↔ n ∈ s.names ∧ n ∈ t.names := by
  simp only [mem_names, has_inter, Bool.and_eq_true]
  constructor
  · rintro ⟨c, ⟨hs, ht⟩, hc⟩
    exact ⟨⟨c, hs, hc⟩, c, ht, hc⟩
  · -- the two capabilities have one name, so they are one
    rintro ⟨⟨c, hs, rfl⟩, d, ht, hd⟩
    exact ⟨c, ⟨hs, Capability.name_inj hd ▸ ht⟩, rfl⟩

theorem ofNames_append (hs : ofNames ns = .ok s) (ht : ofNames ms = .ok t) :
    ofNames (ns ++ ms) = .ok (s ∪ t) := by
  rw [ofNames_eq_ok] at *
  intro n
  rw [List.mem_append, mem_names_union, hs, ht]

theorem ofNames_filter_mem (hs : ofNames ns = .ok s) (ht : ofNames ms = .ok t) :
    ofNames (ns.filter (· ∈ ms)) = .ok (s ∩ t) := by
  rw [ofNames_eq_ok] at *
  intro n
  rw [List.mem_filter, decide_eq_true_eq, mem_names_inter, hs, ht]

/-- **Lists of names.**  A list is a set of capabilities iff every text in it is a name; otherwise
the first that is none is the fault, and a document says so.  The set has the names of the list, in
the order of declaration; it has a capability iff the list has its name; its own names make it
again, and so does any list of the same names.  Two such sets meet iff the lists have a name in
common; their union is that of the lists one after the other, and their intersection that of the
common names. -/
theorem ofNames_collects_names (ns : List String) :
    ((∃ s, ofNames ns = .ok s) ↔ ∀ n ∈ ns, n ∈ Capability.knownNames) ∧
    (∀ n, ofNames ns = .error n ↔ ns.find? (· ∉ Capability.knownNames) = some n) ∧
    (decode (.ofValue (.texts ns))).mapError DocumentFault.text =
      (ofNames ns).mapError (fun n => "unknown delegation capability '" ++ n ++ "'") ∧
    ∀ s, ofNames ns = .ok s →
      s.names = Capability.knownNames.filter (· ∈ ns) ∧
      (∀ c, s.hasAll (single c) = true ↔ c.name ∈ ns) ∧
      ofNames s.names = .ok s ∧
      (∀ ms, ofNames ms = .ok s ↔ ∀ n, n ∈ ms ↔ n ∈ ns) ∧
      ∀ ms t, ofNames ms = .ok t →
        (s.meets t = true ↔ ∃ n, n ∈ ns ∧ n ∈ ms) ∧
        ofNames (ns ++ ms) = .ok (s ∪ t) ∧
        ofNames (ns.filter (· ∈ ms)) = .ok (s ∩ t) := by
  refine ⟨exists_ofNames_iff, fun n => ofNames_eq_error, ?_, ?_⟩
  · rw [decode_texts]
    cases ofNames ns with
    | ok s => rfl
    | error n => rfl
  · intro s hs
    refine ⟨names_of_ofNames hs, ?_, ofNames_names s, fun ms => ofNames_eq_iff hs, ?_⟩
    · intro c
      rw [hasAll_single]
      exact has_of_ofNames hs c
    · intro ms t ht
      exact ⟨meets_of_ofNames hs ht, ofNames_append hs ht, ofNames_filter_mem hs ht⟩

end CapabilitySet

/-! ## A name twice

One list has a name twice and another before its turn; the two lists have one name in common.  Of
two texts that are no names, the first is the fault. -/

namespace Sample

def doubledNames : List String := ["filter", "sort", "filter"]

def sharingNames : List String := ["equal", "sort"]

def inventedNames : List String := ["sort", "teleport", "fly"]

theorem doubled_collects_names :
    CapabilitySet.ofNames inventedNames = .error "teleport" ∧
    ∃ s t, CapabilitySet.ofNames doubledNames = .ok s ∧ CapabilitySet.ofNames sharingNames = .ok t ∧
      s.names = ["sort", "filter"] ∧
      s.hasAll (.single .filter) = true ∧ ¬ s.hasAll (.single .equal) = true ∧
      CapabilitySet.ofNames ["sort", "filter"] = .ok s ∧
      s.meets t = true ∧
      CapabilitySet.ofNames ["filter", "sort", "filter", "equal", "sort"] = .ok (s ∪ t) ∧
      CapabilitySet.ofNames ["sort"] = .ok (s ∩ t) := by
  obtain ⟨-, hfault, -⟩ := CapabilitySet.ofNames_collects_names inventedNames
  obtain ⟨hknown, -, -, hset⟩ := CapabilitySet.ofNames_collects_names doubledNames
  obtain ⟨hknown', -⟩ := CapabilitySet.ofNames_collects_names sharingNames
  obtain ⟨s, hs⟩ := hknown.mpr (by decide)
  obtain ⟨t, ht⟩ := hknown'.mpr (by decide)
  obtain ⟨hnames, hhas, hagain, -, hpair⟩ := hset s hs
  obtain ⟨hmeets, hunion, hinter⟩ := hpair sharingNames t ht
  have hnames' : s.names = ["sort", "filter"] := hnames
  rw [hnames'] at hagain
  exact ⟨(hfault _).mpr rfl, s, t, hs, ht, hnames', (hhas _).mpr (by decide),
    fun h => absurd ((hhas _).mp h) (by decide), hagain, hmeets.mpr ⟨"sort", by decide, by decide⟩,
    hunion, hinter⟩

end Sample

end Delegability
