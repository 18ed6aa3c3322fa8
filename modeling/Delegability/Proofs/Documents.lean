/-
# `Delegability.Proofs.Documents` — metadata written and read again

Sources and entities are written as values and read from documents.  Both ways go through
the same few shapes, lists, dictionaries and records of two fields, and each shape is read
back if its parts are.

    facet      read back  iff  its column paths are clean
    source     read back  if   both its facets are
    entity     read back  if   its source is, and its display names are those of a dictionary

What has been read is of the right kind: columns are keyed by paths that were parsed, and
display names are those of a dictionary.  So it is read back when it is written again.
-/
import Delegability.Proofs.Capabilities
import Delegability.Proofs.DisplayNames
import Delegability.Proofs.Dotted

namespace Delegability

/-! ## Shapes of documents -/

namespace Json

variable {ε α σ : Type}

theorem Document.ofItems_eq_map : ∀ vs : List Value, ofItems vs = vs.map ofValue
  | [] => rfl
  | v :: vs => by rw [ofItems, ofItems_eq_map vs, List.map_cons]

theorem Document.ofMembers_eq_map : ∀ ms : List (String × Value),
    ofMembers ms = ms.map fun m => (some m.1, ofValue m.2)
  | [] => rfl
  | (k, v) :: ms => by rw [ofMembers, ofMembers_eq_map ms, List.map_cons]

theorem decodeList_ofValue {dec : Decoder ε α} {f : α → Value}
    (h : ∀ a, dec (.ofValue (f a)) = .ok a) (as : List α) :
    decodeList dec (.ofValue (.arr (as.map f))) = .ok as := by
  rw [Document.ofValue, Document.ofItems_eq_map, List.map_map]
  exact Success.mapM_map_eq_ok fun a _ => h a

theorem decodeDict_ofValue {dec : Decoder ε α} {f : α → Value}
    (h : ∀ a, dec (.ofValue (f a)) = .ok a) (d : Dict String α) :
    decodeDict dec (.ofValue (.obj (d.entries.map fun e => (e.1, f e.2)))) = .ok d := by
  have hpairs : decodePairs dec (.ofValue (.obj (d.entries.map fun e => (e.1, f e.2)))) =
      .ok d.entries := by
    rw [Document.ofValue, Document.ofMembers_eq_map, List.map_map]
    refine Success.mapM_map_eq_ok fun e _ => ?_
    show (dec (.ofValue (f e.2))).map (e.1, ·) = .ok e
    rw [h]
    rfl
  unfold decodeDict
  rw [hpairs]
  exact congrArg Except.ok d.ofList_entries

/-- A record of two fields, each of which can be read. -/
theorem decodeRecord_pair {β γ : Type} {slots : List (Slot ε σ)}
    {finish : Bool → σ → Except (Fault ε) α} {k l : String} {getB : σ → Option β}
    {setB : β → σ → σ} {decB : Decoder ε β} {getC : σ → Option γ} {setC : γ → σ → σ}
    {decC : Decoder ε γ} {d e : Document} {s : σ} {b : β} {c : γ}
    (hk : slots.find? (fun x => x.name = k) = some (slot k getB setB decB))
    (hl : slots.find? (fun x => x.name = l) = some (slot l getC setC decC))
    (hs : getB s = none) (ht : getC (setB b s) = none) (hd : decB d = .ok b)
    (he : decC e = .ok c) :
    decodeRecord slots s finish (.obj [(some k, d), (some l, e)]) =
      finish false (setC c (setB b s)) := by
  have hfill : fillMembers slots [(some k, d), (some l, e)] s = .ok (setC c (setB b s)) := by
    simp only [fillMembers, hk, hl, slot, hs, ht, hd, he, Option.isSome_none, Bool.false_eq_true,
      if_false, Except.map]
  unfold decodeRecord
  simp only [hfill]

/-! ## What filling keeps -/

variable {slots : List (Slot ε σ)} {P : σ → Prop}

theorem fillMembers_keeps
    (h : ∀ f ∈ slots, ∀ d s s', f.fill d s = .ok s' → P s → P s') :
    ∀ {ms : List (Option String × Document)} {s s' : σ},
      fillMembers slots ms s = .ok s' → P s → P s' := by
  intro ms
  induction ms with
  | nil =>
      rintro s s' ⟨⟩ hs
      exact hs
  | cons m ms ih =>
      obtain ⟨k, d⟩ := m
      intro s s' hfill hs
      cases k with
      | none => cases hfill
      | some k =>
          rw [fillMembers] at hfill
          split at hfill
          next f hf =>
            split at hfill
            · cases hfill
            · split at hfill
              next t ht => exact ih hfill (h f (List.mem_of_find?_eq_some hf) d s t ht hs)
              next => cases hfill
          next =>
            split at hfill
            · exact ih hfill hs
            · cases hfill

theorem fillItems_keeps : ∀ {slots : List (Slot ε σ)},
    (∀ f ∈ slots, ∀ d s s', f.fill d s = .ok s' → P s → P s') →
    ∀ {ds : List Document} {s s' : σ}, fillItems slots ds s = .ok s' → P s → P s' := by
  intro slots
  induction slots with
  | nil =>
      intro _ ds s s' hfill hs
      cases ds with
      | nil =>
          cases hfill
          exact hs
      | cons d ds => cases hfill
  | cons f slots ih =>
      intro h ds s s' hfill hs
      cases ds with
      | nil =>
          cases hfill
          exact hs
      | cons d ds =>
          rw [fillItems] at hfill
          split at hfill
          next t ht =>
            have hmem : ∀ g ∈ slots, ∀ d s s', g.fill d s = .ok s' → P s → P s' :=
              fun g hg => h g (List.mem_cons_of_mem f hg)
            exact ih hmem hfill (h f List.mem_cons_self d s t ht hs)
          next => cases hfill

/-- A record is finished from a draft that has whatever filling keeps. -/
theorem decodeRecord_keeps {init : σ} {finish : Bool → σ → Except (Fault ε) α} {d : Document}
    {a : α} (hd : decodeRecord slots init finish d = .ok a) (hinit : P init)
    (h : ∀ f ∈ slots, ∀ d s s', f.fill d s = .ok s' → P s → P s') :
    ∃ b s, P s ∧ finish b s = .ok a := by
  unfold decodeRecord at hd
  split at hd
  next ms =>
    split at hd
    next s hs => exact ⟨false, s, fillMembers_keeps h hs hinit, hd⟩
    next => cases hd
  next ds =>
    split at hd
    next s hs => exact ⟨true, s, fillItems_keeps h hs hinit, hd⟩
    next => cases hd
  next => cases hd

theorem slot_fill_eq_ok {β : Type} {name : String} {get : σ → Option β} {set : β → σ → σ}
    {dec : Decoder ε β} {d : Document} {s s' : σ} :
    (slot name get set dec).fill d s = .ok s' ↔ ∃ b, dec d = .ok b ∧ set b s = s' :=
  Success.map_eq_ok

end Json

open Json

/-! ## Columns and facets -/

/-- A list of texts is read as the names of capabilities. -/
theorem CapabilitySet.decode_texts (ns : List String) :
    CapabilitySet.decode (.ofValue (.texts ns)) =
      (CapabilitySet.ofNames ns).mapError fun n => .refused (.capability n) := by
  have hnames : (decodeList decodeText (.ofValue (.texts ns)) : Except DocumentFault (List String)) =
      .ok ns := decodeList_ofValue (fun _ => rfl) ns
  unfold CapabilitySet.decode
  rw [hnames]

theorem CapabilitySet.decode_value (s : CapabilitySet) :
    CapabilitySet.decode (.ofValue s.value) = .ok s := by
  rw [CapabilitySet.value, CapabilitySet.decode_texts, CapabilitySet.ofNames_names]
  rfl

theorem ColumnSupport.decode_value (c : ColumnSupport) :
    ColumnSupport.decode (.ofValue c.value) = .ok c := by
  exact (decodeRecord_pair rfl rfl rfl rfl c.capabilities.decode_value
    c.operators.decode_value).trans rfl

namespace Facet

/-- The paths of all columns are clean. -/
def Clean (f : Facet) : Prop := ∀ p ∈ f.columns.keys, p.Clean

theorem decodeColumns_value (f : Facet) :
    decodeColumns (.ofValue (.obj ((dottedColumns f.columns).entries.map
      fun e => (e.1, e.2.value)))) = columnsOfDotted (dottedColumns f.columns) := by
  unfold decodeColumns
  rw [decodeDict_ofValue ColumnSupport.decode_value]

theorem clean_empty : ({} : Facet).Clean := fun _ hp => absurd hp List.not_mem_nil

theorem clean_of_decode {d : Document} {f : Facet} (h : Facet.decode d = .ok f) : f.Clean := by
  have hkeeps : ∀ x ∈ Facet.slots, ∀ d s s', x.fill d s = .ok s' →
      (⟨s.table.getD .none, s.columns.getD ∅⟩ : Facet).Clean →
      (⟨s'.table.getD .none, s'.columns.getD ∅⟩ : Facet).Clean := by
    intro x hx d s s' hfill hs
    rcases List.mem_pair.mp hx with rfl | rfl
    · obtain ⟨t, -, rfl⟩ := slot_fill_eq_ok.mp hfill
      exact hs
    · obtain ⟨columns, hcolumns, rfl⟩ := slot_fill_eq_ok.mp hfill
      unfold decodeColumns at hcolumns
      split at hcolumns
      · exact clean_of_columnsOfDotted hcolumns
      · cases hcolumns
  obtain ⟨b, s, hs, hf⟩ := decodeRecord_keeps h clean_empty hkeeps
  cases hf
  exact hs

/-- A facet is read back iff the paths of its columns are clean. -/
theorem decode_value {f : Facet} : Facet.decode (.ofValue f.value) = .ok f ↔ f.Clean := by
  refine ⟨clean_of_decode, fun hclean => ?_⟩
  have hcolumns := f.decodeColumns_value.trans (columnsOfDotted_dottedColumns.mpr hclean)
  exact (decodeRecord_pair rfl rfl rfl rfl hcolumns f.table.decode_value).trans rfl

end Facet

/-! ## Sources -/

namespace SourceMetadata

/-- Both its facets are clean. -/
def Clean (m : SourceMetadata) : Prop := m.filter.Clean ∧ m.sort.Clean

theorem clean_empty : ({} : SourceMetadata).Clean := ⟨Facet.clean_empty, Facet.clean_empty⟩

theorem clean_of_decode {d : Document} {m : SourceMetadata} (h : SourceMetadata.decode d = .ok m) :
    m.Clean := by
  have hkeeps : ∀ x ∈ SourceMetadata.slots, ∀ d s s', x.fill d s = .ok s' →
      (⟨s.filter.getD {}, s.sort.getD {}⟩ : SourceMetadata).Clean →
      (⟨s'.filter.getD {}, s'.sort.getD {}⟩ : SourceMetadata).Clean := by
    intro x hx d s s' hfill hs
    rcases List.mem_pair.mp hx with rfl | rfl
    · obtain ⟨f, hf, rfl⟩ := slot_fill_eq_ok.mp hfill
      exact ⟨Facet.clean_of_decode hf, hs.2⟩
    · obtain ⟨f, hf, rfl⟩ := slot_fill_eq_ok.mp hfill
      exact ⟨hs.1, Facet.clean_of_decode hf⟩
  obtain ⟨b, s, hs, hm⟩ := decodeRecord_keeps h clean_empty hkeeps
  cases hm
  exact hs

theorem decode_value {m : SourceMetadata} (h : m.Clean) :
    SourceMetadata.decode (.ofValue m.value) = .ok m :=
  (decodeRecord_pair rfl rfl rfl rfl (Facet.decode_value.mpr h.1)
    (Facet.decode_value.mpr h.2)).trans rfl

end SourceMetadata

/-! ## Entities -/

namespace DisplayNames

theorem ofDict_of_decode {d : Document} {m : DisplayNames} (h : DisplayNames.decode d = .ok m) :
    DisplayNames.ofDict m.byLogical = .ok m := by
  unfold DisplayNames.decode at h
  split at h
  · cases h
  next ps _ =>
    have hps := Success.mapError_eq_ok.mp h
    rw [byLogical_of_ofDict hps]
    exact hps

theorem decode_value {m : DisplayNames} (h : DisplayNames.ofDict m.byLogical = .ok m) :
    DisplayNames.decode (.ofValue m.value) = .ok m := by
  have hdict : (decodeDict decodeText (.ofValue m.value) :
      Except DocumentFault (Dict String String)) = .ok m.byLogical :=
    decodeDict_ofValue (fun _ => rfl) m.byLogical
  unfold DisplayNames.decode
  rw [hdict]
  show (DisplayNames.ofDict m.byLogical).mapError _ = _
  rw [h]
  rfl

end DisplayNames

namespace Entity

/-- Its display names are those of a dictionary, and its source is clean. -/
def Clean (e : Entity) : Prop :=
  DisplayNames.ofDict e.displayNames.byLogical = .ok e.displayNames ∧ e.source.Clean

theorem clean_of_decode {d : Document} {e : Entity} (h : Entity.decode d = .ok e) : e.Clean := by
  have hkeeps : ∀ x ∈ Entity.slots, ∀ d s s', x.fill d s = .ok s' →
      (⟨s.displayNames.getD {}, s.source.getD {}⟩ : Entity).Clean →
      (⟨s'.displayNames.getD {}, s'.source.getD {}⟩ : Entity).Clean := by
    intro x hx d s s' hfill hs
    rcases List.mem_pair.mp hx with rfl | rfl
    · obtain ⟨m, hm, rfl⟩ := slot_fill_eq_ok.mp hfill
      exact ⟨DisplayNames.ofDict_of_decode hm, hs.2⟩
    · obtain ⟨m, hm, rfl⟩ := slot_fill_eq_ok.mp hfill
      exact ⟨hs.1, SourceMetadata.clean_of_decode hm⟩
  obtain ⟨b, s, hs, he⟩ := decodeRecord_keeps h ⟨rfl, SourceMetadata.clean_empty⟩ hkeeps
  cases he
  exact hs

theorem decode_value {e : Entity} (h : e.Clean) : Entity.decode (.ofValue e.value) = .ok e :=
  (decodeRecord_pair rfl rfl rfl rfl (SourceMetadata.decode_value h.2)
    (DisplayNames.decode_value h.1)).trans rfl

end Entity

/-! ## Written and read again -/

/-- **Metadata documents.**  A facet is written with its columns under their dotted forms,
the greatest path of a form being the one that is written; it is read back iff no path is the
row itself and no name holds a dot.  What has been read, a source or an entity, is read back
when it is written again.  Reading takes no two keys for one column. -/
theorem metadata_read_back :
    (∀ f : Facet, ∃ members, f.value =
        .obj [("columns", .obj members), ("table_capabilities", f.table.value)] ∧
      (members.map Prod.fst).Nodup ∧
      (∀ k, k ∈ members.map Prod.fst ↔ ∃ p ∈ f.columns.keys, p.dotted = k) ∧
      ∀ k v, (k, v) ∈ members → ∃ p c, f.columns.get? p = some c ∧ p.dotted = k ∧
        c.value = v ∧ ∀ q ∈ f.columns.keys, q.dotted = k → compare q p ≠ .gt) ∧
    (∀ f : Facet, Facet.decode (.ofValue f.value) = .ok f ↔
      ∀ p ∈ f.columns.keys, p.segments ≠ [] ∧ ∀ n ∈ p.segments, '.' ∉ n.text.toList) ∧
    (∀ d m, SourceMetadata.decode d = .ok m → SourceMetadata.decode (.ofValue m.value) = .ok m) ∧
    (∀ d e, Entity.decode d = .ok e → Entity.decode (.ofValue e.value) = .ok e) ∧
    ∀ d columns, Facet.decodeColumns d = .ok columns →
      ∃ keyed, decodeDict ColumnSupport.decode d = .ok keyed ∧
        (columns.entries.map fun e => (e.1.dotted, e.2)).Perm keyed.entries := by
  refine ⟨fun f => ⟨_, rfl, ?_, ?_, ?_⟩, fun f => Facet.decode_value, ?_, ?_, ?_⟩
  · rw [List.map_map]
    exact (Facet.dottedColumns f.columns).nodup_keys
  · intro k
    rw [List.map_map]
    exact Facet.mem_keys_dottedColumns
  · intro k v hkv
    obtain ⟨⟨k', c⟩, he, heq⟩ := List.mem_map.mp hkv
    obtain ⟨rfl, rfl⟩ := Prod.mk.inj heq
    obtain ⟨p, hp, hdotted, hgreatest⟩ :=
      Facet.get?_dottedColumns.mp (Dict.mem_entries.mp he)
    exact ⟨p, c, hp, hdotted, rfl, hgreatest⟩
  · intro d m h
    exact SourceMetadata.decode_value (SourceMetadata.clean_of_decode h)
  · intro d e h
    exact Entity.decode_value (Entity.clean_of_decode h)
  · intro d columns h
    unfold Facet.decodeColumns at h
    split at h
    next keyed hkeyed => exact ⟨keyed, hkeyed, Facet.columnsOfDotted_perm h⟩
    next => cases h

/-! ## A city in an address

Read from a document, `Address.City` is a path of two names.  A column whose one name is
`Address.City` would be written under the same key. -/

namespace Sample

def columnsDocument : Document :=
  .obj [(some "Address.City", .obj [(some "capabilities", .arr [.str "filter"])]),
    (some "Name", .obj [])]

def sourceDocument : Document := .obj [(some "filter", .obj [(some "columns", columnsDocument)])]

def entityDocument : Document :=
  .obj [(some "delegation", sourceDocument),
    (some "display_name_mapping", .obj [(some "city", .str "City")])]

def dottedCity : Facet where
  columns := .ofList [(.ofName ⟨"Address.City", by decide⟩, {})]

theorem address_read_back :
    (∃ m, SourceMetadata.decode sourceDocument = .ok m ∧
      SourceMetadata.decode (.ofValue m.value) = .ok m) ∧
    (∃ e, Entity.decode entityDocument = .ok e ∧ Entity.decode (.ofValue e.value) = .ok e) ∧
    (∃ columns, Facet.decodeColumns columnsDocument = .ok columns ∧ columns.size = 2 ∧
      ∃ keyed, decodeDict ColumnSupport.decode columnsDocument = .ok keyed ∧
        (columns.entries.map fun e => (e.1.dotted, e.2)).Perm keyed.entries) ∧
    Facet.decode (.ofValue dottedCity.value) ≠ .ok dottedCity := by
  obtain ⟨-, hfacet, hsource, hentity, hcolumns⟩ := metadata_read_back
  refine ⟨⟨_, rfl, hsource sourceDocument _ rfl⟩, ⟨_, rfl, hentity entityDocument _ rfl⟩,
    ⟨_, rfl, rfl, hcolumns columnsDocument _ rfl⟩, ?_⟩
  rw [Ne, hfacet]
  intro hclean
  exact (hclean (.ofName ⟨"Address.City", by decide⟩) List.mem_cons_self).2 _ List.mem_cons_self
    (by decide)

end Sample

end Delegability
