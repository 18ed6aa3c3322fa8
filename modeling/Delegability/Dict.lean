/-
# `Delegability.Dict` — dictionaries kept in the order of their keys

Columns, entities, display names and functions are all looked up by a key and
listed in the order of their keys.  A `Dict` is the list of its entries in
that order, each key once; that this holds is part of the type, so two
dictionaries with the same entries are equal.

* `get?_insert_self`, `get?_insert_of_ne`: what an insertion does to a look-up;
* `get?_erase_self`, `get?_erase_of_ne`: what a removal does;
* `mem_entries`: the entries are what look-ups find;
* `Dict.ext_get?`: a dictionary is determined by its look-ups;
* `get?_ofList`: of two pairs with one key the later counts;
* `ofList_concat`, `ofList_entries`: a dictionary is built one entry at a time, and is
  what its own entries build.
-/

namespace Delegability

universe u v

/-- A dictionary: entries in strictly increasing order of their keys. -/
structure Dict (κ : Type u) (α : Type v) [Ord κ] where
  /-- The entries, in the order of their keys. -/
  entries : List (κ × α)
  /-- Every key is smaller than those after it. -/
  sorted : entries.Pairwise fun a b => compare a.1 b.1 = .lt

namespace Dict

variable {κ : Type u} {α : Type v} [Ord κ]

/-! ## Entry lists -/

/-- The value of `k` in a list of entries. -/
def find (k : κ) : List (κ × α) → Option α
  | [] => none
  | (k', v) :: es => if compare k k' = .eq then some v else find k es

/-- Puts an entry where its key belongs, in place of an entry of the same key. -/
def put (k : κ) (v : α) : List (κ × α) → List (κ × α)
  | [] => [(k, v)]
  | (k', v') :: es =>
    match compare k k' with
    | .lt => (k, v) :: (k', v') :: es
    | .eq => (k, v) :: es
    | .gt => (k', v') :: put k v es

/-- Takes the entry of `k` out. -/
def drop (k : κ) (es : List (κ × α)) : List (κ × α) :=
  es.filter fun e => compare k e.1 != .eq

theorem mem_put {k : κ} {v : α} {e : κ × α} {es : List (κ × α)}
    (h : e ∈ put k v es) : e = (k, v) ∨ e ∈ es := by
  induction es with
  | nil => simpa [put] using h
  | cons e' es ih =>
    rw [put] at h
    split at h
    · simpa [or_assoc] using h
    · rcases List.mem_cons.1 h with h | h
      · exact .inl h
      · exact .inr (List.mem_cons_of_mem _ h)
    · rcases List.mem_cons.1 h with h | h
      · exact .inr (h ▸ List.mem_cons_self)
      · exact (ih h).imp_right (List.mem_cons_of_mem _)

theorem put_sorted [Std.TransOrd κ] (k : κ) (v : α) {es : List (κ × α)}
    (h : es.Pairwise fun a b => compare a.1 b.1 = .lt) :
    (put k v es).Pairwise fun a b => compare a.1 b.1 = .lt := by
  induction es with
  | nil => simp [put]
  | cons e es ih =>
    obtain ⟨hhd, htl⟩ := List.pairwise_cons.1 h
    rw [put]
    split
    next hc =>
      refine List.pairwise_cons.2 ⟨fun a ha => ?_, h⟩
      rcases List.mem_cons.1 ha with rfl | ha
      · exact hc
      · exact Std.TransCmp.lt_trans hc (hhd a ha)
    next hc =>
      refine List.pairwise_cons.2 ⟨fun a ha => ?_, htl⟩
      exact Std.TransCmp.lt_of_eq_of_lt hc (hhd a ha)
    next hc =>
      refine List.pairwise_cons.2 ⟨fun a ha => ?_, ih htl⟩
      rcases mem_put ha with rfl | ha
      · exact Std.OrientedCmp.lt_of_gt hc
      · exact hhd a ha

/-! ## Operations -/

/-- The dictionary without entries. -/
def empty : Dict κ α := ⟨[], .nil⟩

instance : EmptyCollection (Dict κ α) := ⟨empty⟩

instance : Inhabited (Dict κ α) := ⟨∅⟩

/-- The value of a key. -/
def get? (d : Dict κ α) (k : κ) : Option α :=
  find k d.entries

/-- Whether a key has a value. -/
def contains (d : Dict κ α) (k : κ) : Bool :=
  (d.get? k).isSome

/-- Gives `k` the value `v`. -/
def insert [Std.TransOrd κ] (d : Dict κ α) (k : κ) (v : α) : Dict κ α :=
  ⟨put k v d.entries, put_sorted k v d.sorted⟩

/-- Takes away the value of `k`. -/
def erase (d : Dict κ α) (k : κ) : Dict κ α :=
  ⟨drop k d.entries, d.sorted.filter _⟩

/-- The dictionary of a list of pairs; of two pairs with one key the later counts. -/
def ofList [Std.TransOrd κ] (es : List (κ × α)) : Dict κ α :=
  es.foldl (fun d e => d.insert e.1 e.2) ∅

/-- The keys, in order. -/
def keys (d : Dict κ α) : List κ :=
  d.entries.map Prod.fst

/-- The number of entries. -/
def size (d : Dict κ α) : Nat :=
  d.entries.length

/-- Whether there are no entries. -/
def isEmpty (d : Dict κ α) : Bool :=
  d.entries.isEmpty

instance [DecidableEq κ] [DecidableEq α] : DecidableEq (Dict κ α) := fun a b =>
  if h : a.entries = b.entries then
    .isTrue (by cases a; cases b; cases h; rfl)
  else .isFalse fun e => h (e ▸ rfl)

/-! ## Look-ups -/

theorem find_put_self [Std.TransOrd κ] (k : κ) (v : α) (es : List (κ × α)) :
    find k (put k v es) = some v := by
  induction es with
  | nil => simp [put, find]
  | cons e es ih =>
    rw [put]
    split
    · simp [find]
    · simp [find]
    next hc => simp [find, hc, ih]

theorem find_put_of_ne [Std.TransOrd κ] {k k' : κ} (h : compare k' k ≠ .eq) (v : α)
    (es : List (κ × α)) : find k' (put k v es) = find k' es := by
  induction es with
  | nil => simp [put, find, h]
  | cons e es ih =>
    rw [put]
    split
    · simp [find, h]
    next hc =>
      have he : compare k' e.1 ≠ .eq := fun hk =>
        h (Std.TransCmp.eq_trans hk (Std.OrientedCmp.eq_symm hc))
      simp [find, h, he]
    · simp [find, ih]

@[simp]
theorem get?_insert_self [Std.TransOrd κ] (d : Dict κ α) (k : κ) (v : α) :
    (d.insert k v).get? k = some v :=
  find_put_self k v d.entries

theorem get?_insert_of_ne [Std.TransOrd κ] (d : Dict κ α) {k k' : κ}
    (h : compare k' k ≠ .eq) (v : α) : (d.insert k v).get? k' = d.get? k' :=
  find_put_of_ne h v d.entries

theorem find_drop_self [Std.TransOrd κ] (k : κ) (es : List (κ × α)) :
    find k (drop k es) = none := by
  induction es with
  | nil => rfl
  | cons e es ih =>
    by_cases hc : compare k e.1 = .eq
    · simpa [drop, hc] using ih
    · simpa [drop, hc, find] using ih

theorem find_drop_of_ne [Std.TransOrd κ] {k k' : κ} (h : compare k' k ≠ .eq)
    (es : List (κ × α)) : find k' (drop k es) = find k' es := by
  induction es with
  | nil => rfl
  | cons e es ih =>
    by_cases hc : compare k e.1 = .eq
    · have he : compare k' e.1 ≠ .eq := fun hk =>
        h (Std.TransCmp.eq_trans hk (Std.OrientedCmp.eq_symm hc))
      simpa [drop, hc, find, he] using ih
    · simp only [drop, find] at ih ⊢
      simp [hc, find, ih]

@[simp]
theorem get?_erase_self [Std.TransOrd κ] (d : Dict κ α) (k : κ) :
    (d.erase k).get? k = none :=
  find_drop_self k d.entries

theorem get?_erase_of_ne [Std.TransOrd κ] (d : Dict κ α) {k k' : κ}
    (h : compare k' k ≠ .eq) : (d.erase k).get? k' = d.get? k' :=
  find_drop_of_ne h d.entries

@[simp]
theorem get?_empty (k : κ) : (∅ : Dict κ α).get? k = none := rfl

/-! ## Equality -/

theorem find_eq_none_of_lt {k : κ} {es : List (κ × α)}
    (h : ∀ e ∈ es, compare k e.1 = .lt) : find k es = none := by
  induction es with
  | nil => rfl
  | cons e es ih =>
    have he := h e List.mem_cons_self
    simp [find, he, ih fun e' he' => h e' (List.mem_cons_of_mem _ he')]

theorem entries_ext [Std.TransOrd κ] [Std.LawfulEqOrd κ] {es fs : List (κ × α)}
    (he : es.Pairwise fun a b => compare a.1 b.1 = .lt)
    (hf : fs.Pairwise fun a b => compare a.1 b.1 = .lt)
    (h : ∀ k, find k es = find k fs) : es = fs := by
  induction es generalizing fs with
  | nil =>
    cases fs with
    | nil => rfl
    | cons f fs => simpa [find] using h f.1
  | cons e es ih =>
    cases fs with
    | nil => simpa [find] using h e.1
    | cons f fs =>
      obtain ⟨hehd, hetl⟩ := List.pairwise_cons.1 he
      obtain ⟨hfhd, hftl⟩ := List.pairwise_cons.1 hf
      cases hc : compare e.1 f.1 with
      | lt =>
        have hnone : find e.1 (f :: fs) = none := find_eq_none_of_lt fun x hx => by
          rcases List.mem_cons.1 hx with rfl | hx
          · exact hc
          · exact Std.TransCmp.lt_trans hc (hfhd x hx)
        exact absurd ((h e.1).trans hnone) (by simp [find])
      | gt =>
        have hc' : compare f.1 e.1 = .lt := Std.OrientedCmp.lt_of_gt hc
        have hnone : find f.1 (e :: es) = none := find_eq_none_of_lt fun x hx => by
          rcases List.mem_cons.1 hx with rfl | hx
          · exact hc'
          · exact Std.TransCmp.lt_trans hc' (hehd x hx)
        exact absurd ((h f.1).symm.trans hnone) (by simp [find])
      | eq =>
        obtain ⟨k, v⟩ := e
        obtain ⟨k', w⟩ := f
        cases Std.LawfulEqCmp.eq_of_compare hc
        have hv : v = w := by simpa [find] using h k
        subst hv
        refine congrArg _ (ih hetl hftl fun x => ?_)
        by_cases hx : compare x k = .eq
        · cases Std.LawfulEqCmp.eq_of_compare hx
          rw [find_eq_none_of_lt hehd, find_eq_none_of_lt hfhd]
        · simpa [find, hx] using h x

/-- A dictionary is determined by its look-ups. -/
theorem ext_get? [Std.TransOrd κ] [Std.LawfulEqOrd κ] {a b : Dict κ α}
    (h : ∀ k, a.get? k = b.get? k) : a = b := by
  have := entries_ext a.sorted b.sorted h
  cases a; cases b; cases this; rfl

/-! ## Entries and look-ups -/

theorem mem_of_find [Std.LawfulEqOrd κ] {k : κ} {v : α} {es : List (κ × α)}
    (h : find k es = some v) : (k, v) ∈ es := by
  induction es with
  | nil => exact absurd h (by simp [find])
  | cons e es ih =>
    rw [find] at h
    split at h
    next hc =>
      cases Std.LawfulEqCmp.eq_of_compare hc
      cases h
      exact List.mem_cons_self
    next => exact List.mem_cons_of_mem e (ih h)

theorem find_of_mem [Std.TransOrd κ] {k : κ} {v : α} {es : List (κ × α)}
    (hs : es.Pairwise fun a b => compare a.1 b.1 = .lt) (h : (k, v) ∈ es) :
    find k es = some v := by
  induction es with
  | nil => exact absurd h List.not_mem_nil
  | cons e es ih =>
    obtain ⟨hhd, htl⟩ := List.pairwise_cons.1 hs
    rcases List.mem_cons.1 h with rfl | h
    · simp [find]
    · have hlt : compare e.1 k = .lt := hhd (k, v) h
      have hne : compare k e.1 ≠ .eq := fun hc => by
        rw [Std.OrientedCmp.eq_symm hc] at hlt
        cases hlt
      simp only [find, hne, if_false]
      exact ih htl h

/-- The entries are what look-ups find. -/
theorem mem_entries [Std.TransOrd κ] [Std.LawfulEqOrd κ] {d : Dict κ α} {k : κ} {v : α} :
    (k, v) ∈ d.entries ↔ d.get? k = some v :=
  ⟨find_of_mem d.sorted, mem_of_find⟩

theorem nodup_keys [Std.LawfulEqOrd κ] (d : Dict κ α) : d.keys.Nodup := by
  refine List.pairwise_map.2 (d.sorted.imp fun {a b} hlt heq => ?_)
  have heq' : compare a.1 b.1 = .eq := heq ▸ Std.ReflCmp.compare_self
  rw [heq'] at hlt
  cases hlt

theorem mem_keys [Std.TransOrd κ] [Std.LawfulEqOrd κ] {d : Dict κ α} {k : κ} :
    k ∈ d.keys ↔ ∃ v, d.get? k = some v := by
  unfold keys
  rw [List.mem_map]
  constructor
  · rintro ⟨⟨k, v⟩, h, rfl⟩
    exact ⟨v, mem_entries.1 h⟩
  · rintro ⟨v, h⟩
    exact ⟨(k, v), mem_entries.2 h, rfl⟩

/-! ## Building -/

theorem ofList_concat [Std.TransOrd κ] (es : List (κ × α)) (e : κ × α) :
    ofList (es ++ [e]) = (ofList es).insert e.1 e.2 := by
  unfold ofList
  rw [List.foldl_append]
  rfl

theorem find_append (k : κ) (es fs : List (κ × α)) :
    find k (es ++ fs) = (find k es).or (find k fs) := by
  induction es with
  | nil => rfl
  | cons e es ih =>
    rw [List.cons_append, find, find]
    split
    · rfl
    · exact ih

theorem get?_insert [Std.TransOrd κ] [Std.LawfulEqOrd κ] (d : Dict κ α) (e : κ × α) (k : κ) :
    (d.insert e.1 e.2).get? k = (find k [e]).or (d.get? k) := by
  rw [find]
  split
  next h =>
    cases Std.LawfulEqCmp.eq_of_compare h
    exact d.get?_insert_self e.1 e.2
  next h => exact d.get?_insert_of_ne h e.2

theorem get?_foldl_insert [Std.TransOrd κ] [Std.LawfulEqOrd κ] (k : κ) (es : List (κ × α))
    (d : Dict κ α) :
    (es.foldl (fun d e => d.insert e.1 e.2) d).get? k = (find k es.reverse).or (d.get? k) := by
  induction es generalizing d with
  | nil => rfl
  | cons e es ih =>
    rw [List.foldl_cons, ih, get?_insert, List.reverse_cons, find_append, Option.or_assoc]

theorem get?_ofList [Std.TransOrd κ] [Std.LawfulEqOrd κ] (k : κ) (es : List (κ × α)) :
    (ofList es).get? k = find k es.reverse := by
  unfold ofList
  rw [get?_foldl_insert, get?_empty, Option.or_none]

theorem find_eq_some [Std.TransOrd κ] [Std.LawfulEqOrd κ] {k : κ} {v : α} {es : List (κ × α)} :
    find k es = some v ↔ ∃ before after, es = before ++ (k, v) :: after ∧
      ∀ e ∈ before, e.1 ≠ k := by
  induction es with
  | nil =>
    constructor
    · intro h
      cases h
    · rintro ⟨before, after, h, -⟩
      cases before <;> cases h
  | cons e es ih =>
    obtain ⟨k', w⟩ := e
    rw [find]
    split
    next hc =>
      cases Std.LawfulEqCmp.eq_of_compare hc
      constructor
      · rintro ⟨⟩
        exact ⟨[], es, rfl, fun _ h => absurd h List.not_mem_nil⟩
      · rintro ⟨before, after, h, hne⟩
        cases before with
        | nil =>
          cases h
          rfl
        | cons b before =>
          cases h
          exact absurd rfl (hne _ List.mem_cons_self)
    next hc =>
      rw [ih]
      constructor
      · rintro ⟨before, after, rfl, hne⟩
        refine ⟨(k', w) :: before, after, rfl, fun x hx => ?_⟩
        rcases List.mem_cons.1 hx with rfl | hx
        · intro he
          exact hc (he ▸ Std.ReflCmp.compare_self)
        · exact hne x hx
      · rintro ⟨before, after, h, hne⟩
        cases before with
        | nil =>
          cases h
          exact absurd Std.ReflCmp.compare_self hc
        | cons b before =>
          cases h
          exact ⟨before, after, rfl, fun x hx => hne x (List.mem_cons_of_mem _ hx)⟩

/-- Of two pairs with one key the later counts. -/
theorem get?_ofList_eq_some [Std.TransOrd κ] [Std.LawfulEqOrd κ] {k : κ} {v : α}
    {es : List (κ × α)} :
    (ofList es).get? k = some v ↔ ∃ before after, es = before ++ (k, v) :: after ∧
      ∀ e ∈ after, e.1 ≠ k := by
  rw [get?_ofList, find_eq_some]
  constructor
  · rintro ⟨before, after, h, hne⟩
    refine ⟨after.reverse, before.reverse, ?_, fun e he => hne e (List.mem_reverse.1 he)⟩
    rw [← List.reverse_reverse es, h, List.reverse_append, List.reverse_cons, List.append_assoc,
      List.singleton_append]
  · rintro ⟨before, after, rfl, hne⟩
    refine ⟨after.reverse, before.reverse, ?_, fun e he => hne e (List.mem_reverse.1 he)⟩
    rw [List.reverse_append, List.reverse_cons, List.append_assoc, List.singleton_append]

/-- If no key comes twice, what is looked up is what was listed. -/
theorem get?_ofList_of_nodup [Std.TransOrd κ] [Std.LawfulEqOrd κ] {k : κ} {v : α}
    {es : List (κ × α)} (h : (es.map Prod.fst).Nodup) :
    (ofList es).get? k = some v ↔ (k, v) ∈ es := by
  rw [get?_ofList_eq_some]
  constructor
  · rintro ⟨before, after, rfl, -⟩
    exact List.mem_append_right before List.mem_cons_self
  · intro hmem
    obtain ⟨before, after, rfl⟩ := List.append_of_mem hmem
    refine ⟨before, after, rfl, fun e he hek => ?_⟩
    rw [List.map_append, List.map_cons] at h
    have hnot := (List.nodup_cons.1 (List.nodup_append.1 h).2.1).1
    exact hnot (List.mem_map.2 ⟨e, he, hek⟩)

/-- Every key that was listed is found. -/
theorem mem_keys_ofList [Std.TransOrd κ] [Std.LawfulEqOrd κ] {k : κ} {es : List (κ × α)} :
    k ∈ (ofList es).keys ↔ k ∈ es.map Prod.fst := by
  rw [mem_keys, get?_ofList, ← List.mem_reverse, ← List.map_reverse]
  induction es.reverse with
  | nil =>
    constructor
    · rintro ⟨v, ⟨⟩⟩
    · intro h
      exact absurd h List.not_mem_nil
  | cons e es ih =>
    rw [find, List.map_cons, List.mem_cons]
    split
    next hc => exact iff_of_true ⟨e.2, rfl⟩ (.inl (Std.LawfulEqCmp.eq_of_compare hc))
    next hc =>
      rw [ih, or_iff_right]
      intro hk
      exact hc (hk ▸ Std.ReflCmp.compare_self)

/-- If no key comes twice, the entries are what was listed, in another order. -/
theorem entries_ofList_perm [Std.TransOrd κ] [Std.LawfulEqOrd κ] {es : List (κ × α)}
    (h : (es.map Prod.fst).Nodup) : (ofList es).entries.Perm es := by
  have hnodup : ∀ l : List (κ × α), (l.map Prod.fst).Nodup → l.Nodup := fun l hl =>
    (List.pairwise_map.1 hl).imp fun {a b} hne hab => hne (congrArg Prod.fst hab)
  rw [List.perm_ext_iff_of_nodup (hnodup _ (nodup_keys _)) (hnodup _ h)]
  rintro ⟨k, v⟩
  rw [mem_entries, get?_ofList_of_nodup h]

theorem mem_foldl_insert [Std.TransOrd κ] {e : κ × α} (es : List (κ × α)) (d : Dict κ α)
    (h : e ∈ (es.foldl (fun d e => d.insert e.1 e.2) d).entries) : e ∈ es ∨ e ∈ d.entries := by
  induction es generalizing d with
  | nil => exact .inr h
  | cons e' es ih =>
    rcases ih _ h with h | h
    · exact .inl (List.mem_cons_of_mem e' h)
    · rcases mem_put h with rfl | h
      · exact .inl List.mem_cons_self
      · exact .inr h

/-- Nothing comes into a dictionary that is not put there. -/
theorem mem_of_mem_ofList [Std.TransOrd κ] {e : κ × α} {es : List (κ × α)}
    (h : e ∈ (ofList es).entries) : e ∈ es :=
  (mem_foldl_insert es ∅ h).resolve_right List.not_mem_nil

theorem put_of_all_lt [Std.OrientedOrd κ] (k : κ) (v : α) {es : List (κ × α)}
    (h : ∀ e ∈ es, compare e.1 k = .lt) : put k v es = es ++ [(k, v)] := by
  induction es with
  | nil => rfl
  | cons e es ih =>
    have he : compare k e.1 = .gt := Std.OrientedCmp.gt_of_lt (h e List.mem_cons_self)
    rw [put, he, List.cons_append, ih fun x hx => h x (List.mem_cons_of_mem e hx)]

theorem foldl_insert_entries [Std.TransOrd κ] (es : List (κ × α)) (d : Dict κ α)
    (h : (d.entries ++ es).Pairwise fun a b => compare a.1 b.1 = .lt) :
    (es.foldl (fun d e => d.insert e.1 e.2) d).entries = d.entries ++ es := by
  induction es generalizing d with
  | nil => exact (List.append_nil _).symm
  | cons e es ih =>
    obtain ⟨-, -, hlt⟩ := List.pairwise_append.1 h
    have hput : (d.insert e.1 e.2).entries = d.entries ++ [e] :=
      put_of_all_lt e.1 e.2 fun x hx => hlt x hx e List.mem_cons_self
    rw [List.foldl_cons, ih, hput, List.append_assoc, List.singleton_append]
    rwa [hput, List.append_assoc, List.singleton_append]

/-- What is in order already stays as it is. -/
theorem entries_ofList [Std.TransOrd κ] {es : List (κ × α)}
    (h : es.Pairwise fun a b => compare a.1 b.1 = .lt) : (ofList es).entries = es :=
  foldl_insert_entries es ∅ h

/-- A dictionary is what its entries build. -/
theorem ofList_entries [Std.TransOrd κ] (d : Dict κ α) : ofList d.entries = d := by
  obtain ⟨es, hs⟩ := d
  have h := entries_ofList hs
  cases hd : ofList es
  rw [hd] at h
  cases h
  rfl

end Dict

end Delegability
