/-
# `Delegability.Proofs.Monotonicity` — who allows more rejects less

Two scopes judge the same formula for the same function.  They agree on what the
nodes are: which depend on the row, are exempt or bound by the condition, their
types, what names stand for and which functions are called.  The second allows
more: features, purity, readiness, and in every facet, wherever one is held,
operators and columns.  `Within` says this, from the facet up to the scope:

    Facet ─▸ SourceMetadata ─▸ Entity ─▸ Expansion ─▸ ValueType, NameInfo ─▸ FactTable ─▸ Scope

What the first scope delegates the second delegates too, also under no operator in
place of one (`Session.delegates_mono`).

The proof runs the two side by side (`Follows`).  Where a run marks nodes, both mark
the same ones, so the second always holds at least the constants of the first among
the calls of the formula (`ConstantsWithin`).  Other marks play no part, so this also
says which marks a verdict can depend on at all.
-/
import Delegability.Proofs.Outcome
import Delegability.Proofs.Soundness
import Mathlib.Data.List.Forall2

namespace Delegability

/-! ## Allowing more -/

/-- All that `f` supports `g` supports. -/
structure Facet.Within (f g : Facet) : Prop where
  table : f.table ⊆ g.table
  columns : ∀ path c, f.column? path = some c →
    ∃ d, g.column? path = some d ∧ c.capabilities ⊆ d.capabilities ∧ c.operators ⊆ d.operators

structure SourceMetadata.Within (m n : SourceMetadata) : Prop where
  filter : m.filter.Within n.filter
  sort : m.sort.Within n.sort

structure Entity.Within (e f : Entity) : Prop where
  displayNames : f.displayNames = e.displayNames
  source : e.source.Within f.source

/-- The same reference, among at least the same entities. -/
structure Expansion.Within (x y : Expansion) : Prop where
  identity : y.identity = x.identity
  name : y.name = x.name
  registry : ∀ i e, x.registry.find? i = some e → ∃ f, y.registry.find? i = some f ∧ e.Within f

/-- Equal, but for the registry that a record refers to. -/
inductive ValueType.Within : ValueType → ValueType → Prop where
  | same (t : ValueType) : Within t t
  | record {x y : Expansion} : x.Within y → Within (.record (some x)) (.record (some y))

inductive NameInfo.Within : NameInfo → NameInfo → Prop where
  | localColumn (path : ColumnPath) {a b : Option SourceMetadata} :
      Option.Rel SourceMetadata.Within a b → Within (.localColumn path a) (.localColumn path b)
  | scopeRecord {a b : Option SourceMetadata} :
      Option.Rel SourceMetadata.Within a b → Within (.scopeRecord a) (.scopeRecord b)
  | entityExpansion (name : Name) {x y : Expansion} :
      x.Within y → Within (.entityExpansion name x) (.entityExpansion name y)
  | other : Within .other .other

/-- The same nodes, with at least as much allowed.  Constants are not compared here:
they may come from records or from marks. -/
structure FactTable.Within (t u : FactTable) : Prop where
  rowScoped : ∀ id, u.isRowScoped id = t.isRowScoped id
  exempted : ∀ id, u.isExempted id = t.isExempted id
  lambdaScoped : ∀ id, u.isLambdaScoped id = t.isLambdaScoped id
  type : ∀ id, Option.Rel ValueType.Within (t.type? id) (u.type? id)
  name : ∀ id, Option.Rel NameInfo.Within (t.name? id) (u.name? id)
  callee : ∀ id, u.callee? id = t.callee? id
  features : u.features.includes t.features = true
  pure : ∀ id, t.isPure id = true → u.isPure id = true
  async : ∀ id, u.isAsync id = true → t.isAsync id = true

structure Scope.Within (s u : Scope) : Prop where
  function : u.function = s.function
  facts : s.facts.Within u.facts
  facet : s.facet.Within u.facet

/-! Everything allows what it allows. -/

theorem Facet.Within.refl (f : Facet) : f.Within f :=
  ⟨fun _ h => h, fun _ c hc => ⟨c, hc, fun _ h => h, fun _ h => h⟩⟩

theorem SourceMetadata.Within.refl (m : SourceMetadata) : m.Within m :=
  ⟨.refl m.filter, .refl m.sort⟩

theorem Expansion.Within.refl (x : Expansion) : x.Within x :=
  ⟨rfl, rfl, fun _ e he => ⟨e, he, rfl, .refl e.source⟩⟩

theorem NameInfo.Within.refl : ∀ a : NameInfo, a.Within a
  | .localColumn path none => .localColumn path .none
  | .localColumn path (some m) => .localColumn path (.some (.refl m))
  | .scopeRecord none => .scopeRecord .none
  | .scopeRecord (some m) => .scopeRecord (.some (.refl m))
  | .entityExpansion name x => .entityExpansion name (.refl x)
  | .other => .other

theorem FactTable.Within.refl (t : FactTable) : t.Within t where
  rowScoped _ := rfl
  exempted _ := rfl
  lambdaScoped _ := rfl
  type id := by
    cases t.type? id with
    | none => exact .none
    | some v => exact .some (.same v)
  name id := by
    cases t.name? id with
    | none => exact .none
    | some info => exact .some (.refl info)
  callee _ := rfl
  features := by simp [Features.includes]
  pure _ h := h
  async _ h := h

theorem Scope.Within.refl (s : Scope) : s.Within s :=
  ⟨rfl, .refl s.facts, .refl s.facet⟩

/-! ## Conditions that only grow -/

theorem Facet.Within.supports {f g : Facet} (h : f.Within g) {path : ColumnPath}
    {required : CapabilitySet} {need need' : Option CapabilitySet}
    (hn : need' = need ∨ need' = none) (hs : f.Supports path required need) :
    g.Supports path required need' := by
  obtain ⟨c, hc, hm, ho⟩ := hs
  obtain ⟨d, hd, hcap, hop⟩ := h.columns path c hc
  refine ⟨d, hd, CapabilitySet.meets_mono hcap hm, fun o hneed => ?_⟩
  rcases hn with rfl | rfl
  · exact CapabilitySet.hasAll_mono hop (ho o hneed)
  · cases hneed

theorem SourceMetadata.Within.facetFor {m n : SourceMetadata} (h : m.Within n)
    (required : CapabilitySet) : (m.facetFor required).Within (n.facetFor required) := by
  unfold SourceMetadata.facetFor
  split
  · exact h.sort
  · exact h.filter

theorem Expansion.Within.entity? {x y : Expansion} (h : x.Within y) {e : Entity}
    (he : x.entity? = some e) : ∃ f, y.entity? = some f ∧ e.Within f := by
  unfold Expansion.entity? at he ⊢
  rw [h.identity]
  exact h.registry x.identity e he

namespace NameInfo

theorem Within.path {a b : NameInfo} (h : a.Within b) (name : Name) : b.path name = a.path name := by
  cases h <;> rfl

theorem Within.unknownEntity? {a b : NameInfo} (h : a.Within b)
    (ha : a.unknownEntity? = none) : b.unknownEntity? = none := by
  cases h with
  | localColumn | scopeRecord | other => rfl
  | @entityExpansion name x y h =>
      cases he : x.entity? with
      | none => simp [NameInfo.unknownEntity?, he] at ha
      | some e =>
          obtain ⟨f, hf, -⟩ := h.entity? he
          simp [NameInfo.unknownEntity?, hf]

/-- Where the second name has a description, so has the first, and it allows less. -/
theorem Within.metadata? {a b : NameInfo} (h : a.Within b) (ha : a.unknownEntity? = none)
    {n : SourceMetadata} (hn : b.metadata? = some n) :
    ∃ m, a.metadata? = some m ∧ m.Within n := by
  cases h with
  | localColumn path h =>
      cases h with
      | some h => cases hn; exact ⟨_, rfl, h⟩
      | none => cases hn
  | scopeRecord h =>
      cases h with
      | some h => cases hn; exact ⟨_, rfl, h⟩
      | none => cases hn
  | @entityExpansion name x y h =>
      -- an entity that only the second registry knows would break this
      cases he : x.entity? with
      | none => simp [NameInfo.unknownEntity?, he] at ha
      | some e =>
          obtain ⟨f, hf, hef⟩ := h.entity? he
          simp only [NameInfo.metadata?, hf, Option.map_some, Option.some.injEq] at hn
          subst hn
          exact ⟨e.source, by simp [NameInfo.metadata?, he], hef.source⟩
  | other => cases hn

end NameInfo

namespace FactTable

variable {t u : FactTable}

theorem Within.name_some (h : t.Within u) {id : NodeId} {info : NameInfo}
    (hi : t.name? id = some info) : ∃ info', u.name? id = some info' ∧ info.Within info' := by
  have hrel := h.name id
  rw [hi] at hrel
  generalize u.name? id = b at hrel ⊢
  cases hrel with
  | some hw => exact ⟨_, rfl, hw⟩

/-- Only records differ in type. -/
theorem Within.type_plain (h : t.Within u) {id : NodeId} {v : ValueType} (hv : t.type? id = some v)
    (hx : ∀ x, v ≠ .record (some x)) : u.type? id = some v := by
  have hrel := h.type id
  rw [hv] at hrel
  generalize u.type? id = b at hrel ⊢
  cases hrel with
  | some hw =>
      cases hw with
      | same => rfl
      | record => exact absurd rfl (hx _)

theorem Within.type_none (h : t.Within u) {id : NodeId}
    (hx : (t.type? id).bind ValueType.expansion? = none) :
    (u.type? id).bind ValueType.expansion? = none := by
  have hrel := h.type id
  generalize t.type? id = a at hrel hx
  generalize u.type? id = b at hrel ⊢
  cases hrel with
  | none => rfl
  | some hw =>
      cases hw with
      | same => exact hx
      | record => cases hx

theorem Within.type_some (h : t.Within u) {id : NodeId} {x : Expansion}
    (hx : (t.type? id).bind ValueType.expansion? = some x) :
    ∃ y, (u.type? id).bind ValueType.expansion? = some y ∧ x.Within y := by
  have hrel := h.type id
  generalize t.type? id = a at hrel hx
  generalize u.type? id = b at hrel ⊢
  cases hrel with
  | none => cases hx
  | some hw =>
      cases hw with
      | same => exact ⟨x, hx, .refl x⟩
      | record hxy =>
          cases hx
          exact ⟨_, rfl, hxy⟩

theorem Within.columnPath? (h : t.Within u) : ∀ e : Expr, u.columnPath? e = t.columnPath? e
  | .first id name => by
      have hrel := h.name id
      unfold FactTable.columnPath?
      generalize t.name? id = a at hrel ⊢
      generalize u.name? id = b at hrel ⊢
      cases hrel with
      | none => rfl
      | some hi => exact congrArg some (hi.path name)
  | .dotted _ left right => by
      unfold FactTable.columnPath?
      rw [Within.columnPath? h left]
  | .call .. | .binary .. | .unary .. | .literal .. | .other .. => rfl

end FactTable

namespace Features

theorem allowImpure_of_includes {a b : Features} (h : a.includes b = true)
    (hb : b.allowImpure = true) : a.allowImpure = true := by
  simp only [includes, Bool.and_eq_true, Bool.or_eq_true, Bool.not_eq_true'] at h
  exact h.1.resolve_left (by simp [hb])

theorem allowAsync_of_includes {a b : Features} (h : a.includes b = true)
    (hb : b.allowAsync = true) : a.allowAsync = true := by
  simp only [includes, Bool.and_eq_true, Bool.or_eq_true, Bool.not_eq_true'] at h
  exact h.2.resolve_left (by simp [hb])

end Features

namespace Scope

variable {s u : Scope} {id : NodeId} {k : NodeKind}

theorem Within.isPure (h : s.Within u) (hp : s.IsPure id) : u.IsPure id := by
  rcases hp with hp | hp
  · exact Or.inl (h.facts.pure id hp)
  · exact Or.inr (Features.allowImpure_of_includes h.facts.features hp)

theorem Within.isReady (h : s.Within u) (hr : s.IsReady id k) : u.IsReady id k := by
  obtain ⟨hp, hw⟩ := hr
  refine ⟨h.isPure hp, ?_⟩
  rcases hw with hw | ⟨ha, hk⟩
  · refine Or.inl (Bool.eq_false_iff.mpr fun hu => ?_)
    rw [h.facts.async id hu] at hw
    cases hw
  · exact Or.inr ⟨Features.allowAsync_of_includes h.facts.features ha, hk⟩

theorem Within.nameSupports (h : s.Within u) {name : Name} {required : CapabilitySet}
    {need need' : Option CapabilitySet} (hn : need' = need ∨ need' = none)
    (hs : s.NameSupports id name required need) : u.NameSupports id name required need' := by
  obtain ⟨info, hi, hknown, hsup⟩ := hs
  obtain ⟨info', hi', hw⟩ := h.facts.name_some hi
  refine ⟨info', hi', hw.unknownEntity? hknown, fun n hmeta => ?_⟩
  obtain ⟨m, hm, hmn⟩ := hw.metadata? hknown hmeta
  rw [hw.path]
  exact (hmn.facetFor required).supports hn (hsup m hm)

theorem Within.isOuterRecord (h : s.Within u) : ∀ {e : Expr}, s.isOuterRecord e = true →
    u.isOuterRecord e = true
  | .first id name, he => by
      simp only [Scope.isOuterRecord, decide_eq_true_eq] at he ⊢
      obtain ⟨info, hi, hw⟩ := h.facts.name_some he
      cases hw with
      | scopeRecord hr =>
          cases hr
          exact hi
  | .call .., he | .dotted .., he | .binary .., he | .unary .., he | .literal .., he
  | .other .., he => nomatch he

theorem Within.accessSupports (h : s.Within u) {left : Expr} {right : Name}
    {need need' : Option CapabilitySet} (hn : need' = need ∨ need' = none)
    (hs : s.AccessSupports id left right need) : u.AccessSupports id left right need' := by
  unfold AccessSupports
  rw [h.function]
  rcases hs with houter | ⟨hx, path, hpath, hsup⟩ | ⟨x, e, hx, he, hsup⟩
  · exact Or.inl (h.isOuterRecord houter)
  · refine Or.inr (Or.inl ⟨h.facts.type_none hx, path, ?_, h.facet.supports hn hsup⟩)
    rw [h.facts.columnPath?]
    exact hpath
  · obtain ⟨y, hy, hxy⟩ := h.facts.type_some hx
    obtain ⟨f, hf, hef⟩ := hxy.entity? he
    refine Or.inr (Or.inr ⟨y, f, hy, hf, ?_⟩)
    have hcol : entityColumn f right = entityColumn e right := by
      unfold entityColumn
      rw [hef.displayNames]
    rw [hcol]
    exact (hef.source.facetFor _).supports hn hsup

theorem Within.isOptionAccess (h : s.Within u) {left : NodeId}
    (ho : s.isOptionAccess id left = true) : u.isOptionAccess id left = true := by
  unfold Scope.isOptionAccess at ho
  split at ho
  next hl hi =>
    simp [Scope.isOptionAccess, h.facts.type_plain hl (by simp), h.facts.type_plain hi (by simp)]
  next hl hi =>
    simp [Scope.isOptionAccess, h.facts.type_plain hl (by simp), h.facts.type_plain hi (by simp)]
  next => cases ho

theorem Within.exemptSpine (h : s.Within u) {e : Expr} : u.ExemptSpine e ↔ s.ExemptSpine e := by
  unfold ExemptSpine
  simp only [h.facts.exempted, h.facts.lambdaScoped]

theorem Within.tableHas (h : s.Within u) {c : Capability} (hc : s.facet.table.has c = true) :
    u.facet.table.has c = true :=
  h.facet.table c hc

end Scope

/-! ## Two runs side by side -/

/-- Where `c` gives `a`, so does `c'`, and passes related before are related after. -/
def Check.Follows {α : Type} (R : Pass → Pass → Prop) (a : α) (c c' : Check α) : Prop :=
  ∀ p p' q, R p p' → c.Gives p a q → ∃ q', c'.Gives p' a q' ∧ R q q'

namespace Scope

variable {s u : Scope} {N : NodeId → Prop} {p p' q : Pass} {id : NodeId} {k : NodeKind}
variable {op op' : Option Strategy}

/-- Among the nodes in `N`, what is constant to `s` in `p` is constant to `u` in `p'`. -/
def ConstantsWithin (s u : Scope) (N : NodeId → Prop) (p p' : Pass) : Prop :=
  ∀ id, N id → s.isConstant p id = true → u.isConstant p' id = true

theorem isConstant_iff : s.isConstant p id = true ↔
    s.facts.isBlockScopedConstant id = true ∨ id ∈ p.marks := by
  simp [isConstant]

theorem ConstantsWithin.trans {w : Scope} {p'' : Pass} (h : s.ConstantsWithin u N p p')
    (h' : u.ConstantsWithin w N p' p'') : s.ConstantsWithin w N p p'' :=
  fun id hid hc => h' id hid (h id hid hc)

/-- Two runs that mark the same node stay side by side. -/
theorem ConstantsWithin.mark (h : s.ConstantsWithin u N p p') (id : NodeId) :
    s.ConstantsWithin u N (p.mark id) (p'.mark id) := by
  intro x hx hc
  -- constant before, or just marked
  have hmark : s.isConstant p x = true ∨ x = id := by
    rcases isConstant_iff.mp hc with hb | hm
    · exact Or.inl (isConstant_iff.mpr (Or.inl hb))
    · rcases Pass.mem_marks_mark.mp hm with hm | rfl
      · exact Or.inl (isConstant_iff.mpr (Or.inr hm))
      · exact Or.inr rfl
  refine isConstant_iff.mpr ?_
  rcases hmark with hc | rfl
  · rcases isConstant_iff.mp (h x hx hc) with hb | hm
    · exact Or.inl hb
    · exact Or.inr (Pass.mem_marks_mark.mpr (Or.inl hm))
  · exact Or.inr (Pass.mem_marks_mark.mpr (Or.inr rfl))

/-- A node seen from above by two scopes: the second follows the first under the same
operator and under none, and as a left side. -/
structure Reading.Follows (R : Pass → Pass → Prop) (r r' : Reading) : Prop where
  id : r'.id = r.id
  verdict : ∀ {op op'}, op' = op ∨ op' = none →
    (r.verdict op).Follows R .delegable (r'.verdict op')
  exempted : r.shape.Follows R .exempted r'.shape
  resolvable : r.shape.Follows R .resolvable r'.shape

/-- Where the left side leads nowhere, only the verdict counts. -/
theorem Reading.Follows.of_unsupported {R : Pass → Pass → Prop} {r r' : Reading} (id : r'.id = r.id)
    (verdict : ∀ {op op'}, op' = op ∨ op' = none →
      (r.verdict op).Follows R .delegable (r'.verdict op'))
    (shape : r.shape = pure .unsupported) : r.Follows R r' := by
  refine ⟨id, verdict, ?_, ?_⟩ <;>
  · intro p p' q _ hgives
    rw [shape] at hgives
    exact absurd (Check.gives_pure.mp hgives).1 (by simp)

theorem judge_id_eq (s u : Scope) (e : Expr) : (u.judge e).id = (s.judge e).id := by
  -- not by `rfl`, which compares the two readings as a whole first
  rw [judge_id, judge_id]

theorem forall₂_judgeArgs {args : List Expr} {P : Reading → Reading → Prop}
    (h : ∀ a ∈ args, P (s.judge a) (u.judge a)) :
    (s.judgeArgs args).Forall₂ P (u.judgeArgs args) := by
  rw [judgeArgs_eq_map, judgeArgs_eq_map, List.forall₂_map_left_iff, List.forall₂_map_right_iff,
    List.forall₂_same]
  exact h

/-- As a left side, a call leads on where it is accepted. -/
theorem Reading.Follows.of_call {R : Pass → Pass → Prop} {head head' : Name}
    {args args' : List Expr} (h : (s.callRule id (s.judgeArgs args)).Follows R .delegable
      (u.callRule id (u.judgeArgs args'))) :
    (s.judge (.call id head args)).Follows R (u.judge (.call id head' args')) := by
  refine ⟨?_, fun _ => h, fun p p' q _ hgives => ?_, fun p p' q hR hgives => ?_⟩
  · rw [judge_id, judge_id]
    rfl
  · obtain ⟨⟨_, _, hb, -⟩, -⟩ := shape_gives_exempted.mp hgives
    cases hb
  · rcases shape_gives_resolvable.mp hgives with ⟨_, _, hb, -⟩ | ⟨_, _, _, hb, hacc⟩
    · cases hb
    · cases hb
      obtain ⟨q', hq', hRq⟩ := h p p' q hR hacc
      exact ⟨q', shape_gives_resolvable.mpr (Or.inr ⟨id, head', args', rfl, hq'⟩), hRq⟩

theorem requires_or_none (hop : op' = op ∨ op' = none) :
    op'.map Strategy.requires = op.map Strategy.requires ∨ op'.map Strategy.requires = none := by
  rcases hop with rfl | rfl
  · exact Or.inl rfl
  · exact Or.inr rfl

namespace Within

theorem readiness_follows {R : Pass → Pass → Prop} (h : s.Within u) :
    (s.readiness id k).Follows R .delegable (u.readiness id k) := by
  intro p p' q hR hacc
  obtain ⟨hr, rfl⟩ := readiness_accepts.mp hacc
  exact ⟨p', readiness_accepts.mpr ⟨h.isReady hr, rfl⟩, hR⟩

theorem columnRule_follows {R : Pass → Pass → Prop} (h : s.Within u) {name : Name}
    {required : CapabilitySet} (hop : op' = op ∨ op' = none) :
    (s.columnRule id name op required).Follows R .delegable
      (u.columnRule id name op' required) := by
  intro p p' q hR hacc
  obtain ⟨hrow, hsup, rfl⟩ := columnRule_accepts.mp hacc
  refine ⟨p', columnRule_accepts.mpr ⟨?_, ?_, rfl⟩, hR⟩
  · rw [h.facts.rowScoped]
    exact hrow
  · exact h.nameSupports (requires_or_none hop) hsup

theorem firstRule_follows {R : Pass → Pass → Prop} (h : s.Within u) {name : Name}
    (hop : op' = op ∨ op' = none) :
    (s.firstRule id name op).Follows R .delegable (u.firstRule id name op') := by
  intro p p' q hR hacc
  obtain ⟨hready, hsup, rfl⟩ := firstRule_accepts.mp hacc
  refine ⟨p', firstRule_accepts.mpr ⟨h.isReady hready, fun hrow => ?_, rfl⟩, hR⟩
  rw [h.facts.rowScoped] at hrow
  rw [h.function]
  exact h.nameSupports (requires_or_none hop) (hsup hrow)

theorem accessRule_follows (h : s.Within u) {left : Expr} {right : Name}
    {shape shape' : Check Shape} (hop : op' = op ∨ op' = none)
    (hex : shape.Follows (s.ConstantsWithin u N) .exempted shape')
    (hres : shape.Follows (s.ConstantsWithin u N) .resolvable shape') :
    (s.accessRule id left right shape op).Follows (s.ConstantsWithin u N) .delegable
      (u.accessRule id left right shape' op') := by
  intro p p' q hR hacc
  obtain ⟨hpure, hsh⟩ := accessRule_accepts.mp hacc
  rcases hsh with ⟨m, hm, rfl⟩ | ⟨hm, hsup⟩
  · obtain ⟨m', hm', hRm⟩ := hex p p' m hR hm
    exact ⟨m'.mark id, accessRule_accepts.mpr ⟨h.isPure hpure, Or.inl ⟨m', hm', rfl⟩⟩,
      hRm.mark id⟩
  · obtain ⟨q', hq', hRq⟩ := hres p p' q hR hm
    exact ⟨q', accessRule_accepts.mpr ⟨h.isPure hpure,
      Or.inr ⟨hq', h.accessSupports (requires_or_none hop) hsup⟩⟩, hRq⟩

theorem dottedRule_follows (h : s.Within u) {left : Expr} {right : Name}
    {shape shape' : Check Shape} (hop : op' = op ∨ op' = none)
    (hex : shape.Follows (s.ConstantsWithin u N) .exempted shape')
    (hres : shape.Follows (s.ConstantsWithin u N) .resolvable shape') :
    (s.dottedRule id left right shape op).Follows (s.ConstantsWithin u N) .delegable
      (u.dottedRule id left right shape' op') := by
  intro p p' q hR hacc
  obtain ⟨hin, hout⟩ := dottedRule_accepts.mp hacc
  cases hrow : s.facts.isRowScoped id with
  | true =>
      obtain ⟨q', hq', hRq⟩ := h.accessRule_follows hop hex hres p p' q hR (hin hrow)
      refine ⟨q', dottedRule_accepts.mpr ⟨fun _ => hq', fun hno => ?_⟩, hRq⟩
      rw [h.facts.rowScoped, hrow] at hno
      cases hno
  | false =>
      obtain ⟨hready, rfl⟩ := hout hrow
      refine ⟨p', dottedRule_accepts.mpr ⟨fun hyes => ?_, fun _ => ⟨?_, rfl⟩⟩, hR⟩
      · rw [h.facts.rowScoped, hrow] at hyes
        cases hyes
      · exact hready.imp h.isOptionAccess h.isReady

theorem serverSide_follows {R : Pass → Pass → Prop} (h : s.Within u) {f : DelegableFunction}
    {args args' : List Reading} (hargs : args.Forall₂ (Reading.Follows R) args') :
    (s.serverSide f args).Follows R true (u.serverSide f args') := by
  intro p p' q hR hgives
  obtain ⟨c, column, pattern, m, hc, rfl, ht, hcol, hrow, hpat⟩ := serverSide_gives_true.mp hgives
  obtain ⟨column', _, hcol', hrest, rfl⟩ := List.forall₂_cons_left_iff.mp hargs
  obtain ⟨pattern', _, hpat', hnil, rfl⟩ := List.forall₂_cons_left_iff.mp hrest
  cases hnil
  obtain ⟨m', hm', hRm⟩ := hcol'.verdict (Or.inl rfl) p p' m hR hcol
  obtain ⟨q', hq', hRq⟩ := hpat'.verdict (Or.inl rfl) m m' q hRm hpat
  refine ⟨q', serverSide_gives_true.mpr
    ⟨c, column', pattern', m', hc, rfl, h.tableHas ht, hm', ?_, hq'⟩, hRq⟩
  rw [hpat'.id, h.facts.rowScoped]
  exact hrow

theorem genericCall_follows (h : s.Within u) {args args' : List Reading} {allowVarying : Bool}
    (hid : N id) (hargs : args.Forall₂ (Reading.Follows (s.ConstantsWithin u N)) args') :
    (s.genericCall id args allowVarying).Follows (s.ConstantsWithin u N) .delegable
      (u.genericCall id args' allowVarying) := by
  intro p p' q hR hacc
  obtain ⟨hready, hout, hin⟩ := genericCall_accepts.mp hacc
  cases hrow : s.facts.isRowScoped id with
  | false =>
      obtain rfl := hout hrow
      refine ⟨p', genericCall_accepts.mpr ⟨h.isReady hready, fun _ => rfl, fun hyes => ?_⟩, hR⟩
      rw [h.facts.rowScoped, hrow] at hyes
      cases hyes
  | true =>
      obtain ⟨hconst, hcall⟩ := hin hrow
      obtain ⟨f, hf, hserver⟩ := rowCallRule_accepts.mp hcall
      obtain ⟨q', hq', hRq⟩ := h.serverSide_follows hargs p p' q hR hserver
      refine ⟨q', genericCall_accepts.mpr ⟨h.isReady hready, fun hno => ?_, fun _ => ⟨?_, ?_⟩⟩, hRq⟩
      · rw [h.facts.rowScoped, hrow] at hno
        cases hno
      · exact hconst.imp_right (hR _ hid)
      · exact rowCallRule_accepts.mpr ⟨f, (h.facts.callee id).trans hf, hq'⟩

theorem castRule_follows {R : Pass → Pass → Prop} (h : s.Within u) {args args' : List Reading}
    (hargs : args.Forall₂ (Reading.Follows R) args') :
    (s.castRule id args).Follows R .delegable (u.castRule id args') := by
  intro p p' q hR hacc
  obtain ⟨ht, source, rest, rfl, hsource⟩ := castRule_accepts.mp hacc
  obtain ⟨source', rest', hsource', -, rfl⟩ := List.forall₂_cons_left_iff.mp hargs
  obtain ⟨q', hq', hRq⟩ := hsource'.verdict (Or.inl rfl) p p' q hR hsource
  exact ⟨q', castRule_accepts.mpr ⟨h.tableHas ht, source', rest', rfl, hq'⟩, hRq⟩

theorem callRule_follows (h : s.Within u) {args args' : List Reading} (hid : N id)
    (hargs : args.Forall₂ (Reading.Follows (s.ConstantsWithin u N)) args') :
    (s.callRule id args).Follows (s.ConstantsWithin u N) .delegable (u.callRule id args') := by
  have hcallee := h.facts.callee id
  by_cases huser : s.facts.callee? id = some .user
  · intro p p' q hR hacc
    obtain rfl := (callRule_accepts_user huser).mp hacc
    exact ⟨p', (callRule_accepts_user (hcallee.trans huser)).mpr rfl, hR⟩
  · by_cases hcast : s.facts.callee? id = some .asType
    · rw [callRule_of_cast hcast, callRule_of_cast (hcallee.trans hcast)]
      exact h.castRule_follows hargs
    · rw [callRule_of_other huser hcast, callRule_of_other (hcallee ▸ huser) (hcallee ▸ hcast)]
      exact h.genericCall_follows hid hargs

theorem rowRule_follows {R : Pass → Pass → Prop} (h : s.Within u) {rule rule' : Check Verdict}
    (hrule : rule.Follows R .delegable rule') :
    (s.rowRule id k rule).Follows R .delegable (u.rowRule id k rule') := by
  unfold rowRule
  rw [h.facts.rowScoped]
  split
  · exact hrule
  · exact h.readiness_follows

theorem binaryRule_follows {R : Pass → Pass → Prop} (h : s.Within u) {op : BinaryOp}
    {left right left' right' : Reading} (hl : left.Follows R left') (hr : right.Follows R right') :
    (s.binaryRule id op left right).Follows R .delegable (u.binaryRule id op left' right') := by
  intro p p' q hR hacc
  obtain ⟨hpure, ht, hboth, m, hm, hq⟩ := binaryRule_accepts.mp hacc
  obtain ⟨m', hm', hRm⟩ := hl.verdict (Or.inl rfl) p p' m hR hm
  obtain ⟨q', hq', hRq⟩ := hr.verdict (Or.inl rfl) m m' q hRm hq
  refine ⟨q', binaryRule_accepts.mpr ⟨h.isPure hpure, h.tableHas ht, ?_, m', hm', hq'⟩, hRq⟩
  rw [hl.id, hr.id, h.facts.rowScoped, h.facts.rowScoped]
  exact hboth

theorem unaryRule_follows {R : Pass → Pass → Prop} (h : s.Within u) {op : UnaryOp}
    {operand operand' : Reading} (ho : operand.Follows R operand') :
    (s.unaryRule id op operand).Follows R .delegable (u.unaryRule id op operand') := by
  intro p p' q hR hacc
  obtain ⟨hpure, ht, hop⟩ := unaryRule_accepts.mp hacc
  obtain ⟨q', hq', hRq⟩ := ho.verdict (Or.inl rfl) p p' q hR hop
  exact ⟨q', unaryRule_accepts.mpr ⟨h.isPure hpure, h.tableHas ht, hq'⟩, hRq⟩

/-! ## Every formula -/

theorem shape_exempted_follows {R : Pass → Pass → Prop} (h : s.Within u) {e : Expr} :
    (s.judge e).shape.Follows R .exempted (u.judge e).shape := by
  intro p p' q hR hgives
  obtain ⟨hex, rfl⟩ := shape_gives_exempted.mp hgives
  exact ⟨p', shape_gives_exempted.mpr ⟨h.exemptSpine.mpr hex, rfl⟩, hR⟩

/-- Through all sub-expressions of a formula the second scope follows the first, as long
as it holds the constants among the calls of the formula. -/
theorem judge_follows (h : s.Within u) {tree e : Expr} : e ∈ tree.postorder →
    (s.judge e).Follows (s.ConstantsWithin u tree.HasCall) (u.judge e) := by
  induction e using Expr.ind with
  | call id head args ih =>
      intro he
      exact .of_call (h.callRule_follows ⟨head, args, he⟩
        (forall₂_judgeArgs fun a ha => ih a ha (Expr.mem_of_arg he ha)))
  | dotted id left right ih =>
      intro he
      have hleft := ih (Expr.mem_of_dotted he)
      exact ⟨judge_id_eq s u _, fun hop => h.dottedRule_follows hop hleft.exempted hleft.resolvable,
        hleft.exempted, hleft.resolvable⟩
  | first id name =>
      intro _
      refine ⟨judge_id_eq s u _, fun hop => h.firstRule_follows hop, h.shape_exempted_follows, ?_⟩
      intro p p' q hR hgives
      rcases shape_gives_resolvable.mp hgives with ⟨_, _, hb, hex, rfl⟩ | ⟨_, _, _, hb, -⟩
      · exact ⟨p', shape_gives_resolvable.mpr
          (Or.inl ⟨_, _, hb, fun hx => hex (h.exemptSpine.mp hx), rfl⟩), hR⟩
      · cases hb
  | binary id op left right ihl ihr =>
      intro he
      have hl := ihl (Expr.mem_of_left he)
      have hr := ihr (Expr.mem_of_right he)
      exact .of_unsupported (judge_id_eq s u _)
        (fun _ => h.rowRule_follows (h.binaryRule_follows hl hr)) rfl
  | unary id op operand ih =>
      intro he
      have ho := ih (Expr.mem_of_operand he)
      exact .of_unsupported (judge_id_eq s u _)
        (fun _ => h.rowRule_follows (h.unaryRule_follows ho)) rfl
  | literal id value =>
      intro _
      refine .of_unsupported (judge_id_eq s u _) (fun _ p p' q hR hacc => ?_) rfl
      obtain rfl := Check.accepts_accept.mp hacc
      exact ⟨p', Check.accepts_accept.mpr rfl, hR⟩
  | other id description =>
      intro _
      refine .of_unsupported (judge_id_eq s u _)
        (fun _ => h.rowRule_follows fun p p' q _ hacc => ?_) rfl
      exact absurd hacc not_accepts_otherRule

end Within

end Scope

/-- **Monotonicity**: what is delegated stays delegated when more is allowed, and under
no operator in place of one. -/
theorem Session.delegates_mono {session session' : Session} {t t' : Tracker} {s u : Scope}
    {root : Expr} {op op' : Option Strategy} (h : s.Within u)
    (hc : ∀ id, s.isConstant session.newPass id = true →
      u.isConstant session'.newPass id = true)
    (hop : op' = op ∨ op' = none) (hd : session.Delegates t s root op) :
    session'.Delegates t' u root op' := by
  obtain ⟨hn, q, hq⟩ := Session.delegates_iff.mp hd
  have hfollows : (s.judge root).Follows (s.ConstantsWithin u root.HasCall) (u.judge root) :=
    h.judge_follows (Expr.self_mem_postorder root)
  obtain ⟨q', hq', -⟩ := hfollows.verdict hop _ session'.newPass q (fun id _ => hc id) hq
  refine Session.delegates_iff.mpr ⟨?_, q', hq'⟩
  rw [h.function]
  exact hn

/-! ## More allowed in the sample

The source of `Sample.scope` describes another column, waiting is allowed, a node has
been marked before, and there is no operator above. -/

theorem Facet.Within.withColumn {f : Facet} {path : ColumnPath} (h : f.column? path = none)
    (c : ColumnSupport) : f.Within (f.withColumn path c) where
  table := fun _ h => h
  columns := by
    intro path' d hd
    have hne : compare path' path ≠ .eq := by
      intro heq
      rw [Std.LawfulEqOrd.eq_of_compare heq, h] at hd
      cases hd
    exact ⟨d, (Dict.get?_insert_of_ne f.columns hne c).trans hd, fun _ h => h, fun _ h => h⟩

namespace Sample

def age : Name := ⟨"Age", by decide⟩

def widened : Scope where
  function := .filter
  facts := { facts with features := { allowAsync := true } }
  facet := facet.withColumn (.ofName age) ⟨.single .filter, .single .lessThan⟩

theorem scope_within_widened : scope.Within widened where
  function := rfl
  facts := { FactTable.Within.refl facts with features := rfl }
  facet := .withColumn rfl _

theorem widened_delegates :
    scope.Within widened ∧
      ({} : Session).Delegates silent scope formula (some (.unary .negate)) ∧
      ({ marks := [2] } : Session).Delegates silent widened formula none := by
  have hd : ({} : Session).Delegates silent scope formula (some (.unary .negate)) :=
    ⟨_, _, rfl, rfl⟩
  refine ⟨scope_within_widened, hd, ?_⟩
  refine Session.delegates_mono scope_within_widened (fun id hc => ?_) (Or.inr rfl) hd
  rcases Scope.isConstant_iff.mp hc with hb | hm
  · exact Scope.isConstant_iff.mpr (Or.inl hb)
  · cases hm

end Sample

end Delegability
