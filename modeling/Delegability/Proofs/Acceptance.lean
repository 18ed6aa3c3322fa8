/-
# `Delegability.Proofs.Acceptance` — when a rule accepts

Each rule either accepts or rejects, and for each of them one lemma here says
exactly when it accepts and what it then leaves behind:

    c.Accepts p q     the check `c`, started in the pass `p`, accepts and ends in `q`

Accepting leaves the findings alone; all that it can change are the marks.  The
conditions are named (`IsPure`, `IsReady`, `Supports`, …) because the theory
speaks about them again and again.  Later modules use these lemmas and do not
open the rules.
-/
import Delegability.Proofs.Capabilities
import Delegability.Proofs.Formula
import Delegability.Session

namespace Delegability

/-! ## Running checks -/

namespace Check

variable {α β : Type} {p q : Pass}

/-- The check, started in `p`, gives `a` and ends in `q`. -/
def Gives (c : Check α) (p : Pass) (a : α) (q : Pass) : Prop := c.run p = .ok (a, q)

/-- The check, started in `p`, accepts and ends in `q`. -/
def Accepts (c : Check Verdict) (p q : Pass) : Prop := c.Gives p .delegable q

@[simp]
theorem gives_pure {a b : α} : (pure a : Check α).Gives p b q ↔ a = b ∧ p = q := by
  show Except.ok (a, p) = Except.ok (b, q) ↔ _
  simp

@[simp]
theorem gives_bind {c : Check α} {f : α → Check β} {b : β} :
    (c >>= f).Gives p b q ↔ ∃ a m, c.Gives p a m ∧ (f a).Gives m b q := by
  unfold Gives
  rw [StateT.run_bind]
  cases h : c.run p with
  | error v =>
      constructor
      · intro hb
        cases hb
      · rintro ⟨a, m, ha, -⟩
        cases ha
  | ok x =>
      constructor
      · intro hb
        exact ⟨x.1, x.2, rfl, hb⟩
      · rintro ⟨a, m, hx, hb⟩
        cases hx
        exact hb

@[simp]
theorem gives_map {c : Check α} {f : α → β} {b : β} :
    (f <$> c).Gives p b q ↔ ∃ a, c.Gives p a q ∧ f a = b := by
  rw [← bind_pure_comp, gives_bind]
  constructor
  · rintro ⟨a, m, hc, hb⟩
    obtain ⟨hfa, rfl⟩ := gives_pure.mp hb
    exact ⟨a, hc, hfa⟩
  · rintro ⟨a, hc, hb⟩
    exact ⟨a, q, hc, gives_pure.mpr ⟨hb, rfl⟩⟩

@[simp]
theorem gives_get {a : Pass} : (get : Check Pass).Gives p a q ↔ p = a ∧ p = q := by
  show Except.ok (p, p) = Except.ok (a, q) ↔ _
  simp

@[simp]
theorem gives_modify {f : Pass → Pass} {u : Unit} :
    (modify f : Check Unit).Gives p u q ↔ f p = q := by
  show Except.ok ((), f p) = Except.ok (u, q) ↔ _
  simp

@[simp]
theorem not_gives_throw {v : Violation} {a : α} : ¬ (throw v : Check α).Gives p a q := by
  intro h
  cases h

/-- A check gives one thing. -/
theorem Gives.det {c : Check α} {a b : α} {m : Pass} (ha : c.Gives p a q) (hb : c.Gives p b m) :
    a = b ∧ q = m := by
  have h := ha.symm.trans hb
  simpa using h

@[simp]
theorem accepts_accept : accept.Accepts p q ↔ p = q := by
  simp [accept, Accepts]

@[simp]
theorem not_accepts_reject {r : Rejection} : ¬ (reject r).Accepts p q := by
  simp [reject, Accepts]

@[simp]
theorem accepts_andThen {first next : Check Verdict} :
    (andThen first next).Accepts p q ↔ ∃ m, first.Accepts p m ∧ next.Accepts m q := by
  unfold andThen Accepts
  rw [gives_bind]
  constructor
  · rintro ⟨v, m, hv, hq⟩
    cases v with
    | delegable => exact ⟨m, hv, hq⟩
    | rejected r => exact absurd (gives_pure.mp hq).1 (by simp)
  · rintro ⟨m, hm, hq⟩
    exact ⟨.delegable, m, hm, hq⟩

end Check

/-- The facet has an entry for the column that serves what is required and allows
the operator above it, if there is one. -/
def Facet.Supports (f : Facet) (path : ColumnPath) (required : CapabilitySet)
    (need : Option CapabilitySet) : Prop :=
  ∃ c, f.column? path = some c ∧ c.capabilities.meets required = true ∧
    ∀ o, need = some o → c.operators.hasAll o = true

/-- The rejection of a node because of a column, for lack of what is required or of the operator
above. -/
structure Rejection.OfColumn (r : Rejection) (id : NodeId) (k : NodeKind) (column : String)
    (op : Option Strategy) : Prop where
  status : r.status = .noSupportByColumn
  node : r.node = id
  kind : r.kind = k
  hint : r.hint = .notSupportedByColumn column
  context : r.context = Context.column column ∨
    ∃ o, op = some o ∧ r.context = Context.columnOperator column o.operator

namespace Scope

variable {s : Scope} {p q : Pass} {id : NodeId} {k : NodeKind}

/-! ## Effects and waiting -/

/-- No effects stand against the node. -/
def IsPure (s : Scope) (id : NodeId) : Prop :=
  s.facts.isPure id = true ∨ s.facts.features.allowImpure = true

/-- Neither effects nor waiting stand against a node of the kind. -/
def IsReady (s : Scope) (id : NodeId) (k : NodeKind) : Prop :=
  s.IsPure id ∧ (s.facts.isAsync id = false ∨
    (s.facts.features.allowAsync = true ∧ k.isAsyncDelegable = true))

@[simp]
theorem not_accepts_rejectPlainly {status : Status} {context : String} :
    ¬ (s.rejectPlainly id k status context).Accepts p q :=
  Check.not_accepts_reject

@[simp]
theorem purity_accepts : (s.purity id k).Accepts p q ↔ s.IsPure id ∧ p = q := by
  unfold purity IsPure
  cases hp : s.facts.isPure id <;> cases hi : s.facts.features.allowImpure <;> simp

theorem purity_of_pure (h : s.IsPure id) (k : NodeKind) : s.purity id k = Check.accept := by
  unfold purity
  rcases h with h | h
  · rw [h]
    rfl
  · rw [h, Bool.not_true, Bool.and_false]
    rfl

theorem purity_andThen_accepts {next : Check Verdict} :
    (Check.andThen (s.purity id k) next).Accepts p q ↔ s.IsPure id ∧ next.Accepts p q := by
  simp [and_assoc]

@[simp]
theorem readiness_accepts : (s.readiness id k).Accepts p q ↔ s.IsReady id k ∧ p = q := by
  have hwait : (if !s.facts.isAsync id then Check.accept
      else if s.facts.features.allowAsync && k.isAsyncDelegable then Check.accept
      else s.rejectPlainly id k .asyncPredicate (Context.asyncOrImpure k true true)).Accepts p q ↔
      (s.facts.isAsync id = false ∨
        (s.facts.features.allowAsync = true ∧ k.isAsyncDelegable = true)) ∧ p = q := by
    cases s.facts.isAsync id <;> cases s.facts.features.allowAsync <;>
      cases k.isAsyncDelegable <;> simp
  unfold readiness IsReady
  rw [purity_andThen_accepts, hwait, and_assoc]

theorem readiness_andThen_accepts {next : Check Verdict} :
    (Check.andThen (s.readiness id k) next).Accepts p q ↔ s.IsReady id k ∧ next.Accepts p q := by
  simp [and_assoc]

/-! ## Columns -/

@[simp]
theorem not_accepts_rejectColumn {column : String} : ¬ (s.rejectColumn id k column).Accepts p q :=
  Check.not_accepts_reject

@[simp]
theorem not_accepts_rejectEntity {identity : String} :
    ¬ (s.rejectEntity id k identity).Accepts p q := by
  intro h
  obtain ⟨_, m, -, hr⟩ := Check.gives_bind.mp h
  exact not_accepts_rejectPlainly hr

theorem operatorRule_accepts {f : Facet} {path : ColumnPath} {op : Option Strategy} :
    (s.operatorRule id k f path op).Accepts p q ↔
      (∀ o, op.map Strategy.requires = some o → f.allowsOnColumn path o = true) ∧ p = q := by
  cases op with
  | none => simp [operatorRule]
  | some op =>
      simp only [operatorRule, Strategy.isSupported, Option.map_some, Option.some.injEq,
        forall_eq']
      by_cases h : f.allowsOnColumn path op.requires = true <;> simp [h]

theorem supportRule_accepts {f : Facet} {path : ColumnPath} {required : CapabilitySet}
    {op : Option Strategy} :
    (s.supportRule id k f path required op).Accepts p q ↔
      f.Supports path required (op.map Strategy.requires) ∧ p = q := by
  unfold supportRule Facet.supportsColumn Facet.Supports
  cases hc : f.column? path with
  | none => simp
  | some c =>
      simp only [Option.any_some, Option.some.injEq, exists_eq_left']
      by_cases hm : c.capabilities.meets required = true
      · simp [operatorRule_accepts, hm, Facet.allowsOnColumn, hc]
      · simp [hm]

/-- What a facet says of a column is nothing, or that the column lacks support. -/
theorem supportRule_cases (s : Scope) (id : NodeId) (k : NodeKind) (f : Facet) (path : ColumnPath)
    (required : CapabilitySet) (op : Option Strategy) :
    s.supportRule id k f path required op = Check.accept ∨
      ∃ r, s.supportRule id k f path required op = Check.reject r ∧
        r.OfColumn id k path.dotted op := by
  unfold supportRule
  split
  · cases op with
    | none => exact Or.inl rfl
    | some op =>
        rw [operatorRule]
        split
        · exact Or.inl rfl
        · exact Or.inr ⟨_, rfl, rfl, rfl, rfl, rfl, Or.inr ⟨op, rfl, rfl⟩⟩
  · exact Or.inr ⟨_, rfl, rfl, rfl, rfl, rfl, Or.inl rfl⟩

theorem supportRule_rejects {f : Facet} {path : ColumnPath} {required : CapabilitySet}
    {op : Option Strategy} (h : ¬ f.Supports path required (op.map Strategy.requires)) :
    ∃ r, s.supportRule id k f path required op = Check.reject r ∧
      r.OfColumn id k path.dotted op := by
  rcases s.supportRule_cases id k f path required op with hacc | hrej
  · have haccepts : (s.supportRule id k f path required op).Accepts {} {} := by rw [hacc]; rfl
    exact absurd (supportRule_accepts.mp haccepts).1 h
  · exact hrej

/-- What a bare name stands for does not stand against it. -/
def NameSupports (s : Scope) (id : NodeId) (name : Name) (required : CapabilitySet)
    (need : Option CapabilitySet) : Prop :=
  ∃ info, s.facts.name? id = some info ∧ info.unknownEntity? = none ∧
    ∀ m, info.metadata? = some m → (m.facetFor required).Supports (info.path name) required need

theorem columnRule_accepts {name : Name} {op : Option Strategy} {required : CapabilitySet} :
    (s.columnRule id name op required).Accepts p q ↔
      s.facts.isRowScoped id = true ∧
        s.NameSupports id name required (op.map Strategy.requires) ∧ p = q := by
  unfold columnRule NameSupports
  cases s.facts.isRowScoped id with
  | false =>
      -- a violation is no verdict
      simp only [Bool.not_false, if_true, Bool.false_eq_true, false_and, iff_false]
      exact Check.not_gives_throw
  | true =>
      simp only [Bool.not_true, Bool.false_eq_true, if_false, true_and]
      cases s.facts.name? id with
      | none => simp
      | some info =>
          cases hu : info.unknownEntity? with
          | some identity => simp [hu]
          | none =>
              cases hm : info.metadata? with
              | none => simp [hu, hm]
              | some m => simp [hu, hm, supportRule_accepts]

theorem firstRule_accepts {name : Name} {op : Option Strategy} :
    (s.firstRule id name op).Accepts p q ↔ s.IsReady id .firstName ∧
      (s.facts.isRowScoped id = true →
        s.NameSupports id name s.function.requires (op.map Strategy.requires)) ∧ p = q := by
  unfold firstRule
  rw [readiness_andThen_accepts]
  cases hr : s.facts.isRowScoped id with
  | false => simp
  | true => simp [columnRule_accepts, hr]

/-! ## Access -/

/-- An access whose left side may lead to a column leads to one that is supported,
in the facet itself or in the entity that the left side refers to; or it picks
a field of a row that an outer evaluation supplies. -/
def AccessSupports (s : Scope) (id : NodeId) (left : Expr) (right : Name)
    (need : Option CapabilitySet) : Prop :=
  s.isOuterRecord left = true ∨
    ((s.facts.type? left.id).bind ValueType.expansion? = none ∧
      ∃ path, s.facts.columnPath? (.dotted id left right) = some path ∧
        s.facet.Supports path s.function.requires need) ∨
    ∃ x e, (s.facts.type? left.id).bind ValueType.expansion? = some x ∧ x.entity? = some e ∧
      (e.source.facetFor s.function.requires).Supports
        (ColumnPath.root.append (entityColumn e right)) s.function.requires need

theorem resolvedAccess_accepts {left : Expr} {right : Name} {op : Option Strategy} :
    (s.resolvedAccess id left right op).Accepts p q ↔
      s.AccessSupports id left right (op.map Strategy.requires) ∧ p = q := by
  unfold resolvedAccess AccessSupports
  cases s.isOuterRecord left with
  | true => simp
  | false =>
      cases hx : (s.facts.type? left.id).bind ValueType.expansion? with
      | none =>
          cases hp : s.facts.columnPath? (.dotted id left right) with
          | none => simp
          | some path => simp [supportRule_accepts]
      | some x =>
          cases he : x.entity? with
          | none => simp [he]
          | some e => simp [he, supportRule_accepts]

theorem accessRule_accepts {left : Expr} {right : Name} {shape : Check Shape}
    {op : Option Strategy} :
    (s.accessRule id left right shape op).Accepts p q ↔ s.IsPure id ∧
      ((∃ m, shape.Gives p .exempted m ∧ m.mark id = q) ∨
        (shape.Gives p .resolvable q ∧
          s.AccessSupports id left right (op.map Strategy.requires))) := by
  unfold accessRule
  rw [purity_andThen_accepts]
  refine and_congr_right fun _ => ?_
  constructor
  · intro h
    obtain ⟨sh, m, hsh, hq⟩ := Check.gives_bind.mp h
    cases sh with
    | exempted =>
        obtain ⟨u, m', hmark, hacc⟩ := Check.gives_bind.mp hq
        have hm' : m.mark id = m' := Check.gives_modify.mp hmark
        have hq' : m' = q := Check.accepts_accept.mp hacc
        exact Or.inl ⟨m, hsh, hm'.trans hq'⟩
    | resolvable =>
        obtain ⟨hsup, rfl⟩ := resolvedAccess_accepts.mp hq
        exact Or.inr ⟨hsh, hsup⟩
    | unsupported => exact absurd hq not_accepts_rejectPlainly
    | rejected r => exact absurd (Check.gives_pure.mp hq).1 (by simp)
  · intro h
    refine Check.gives_bind.mpr ?_
    rcases h with ⟨m, hsh, hmark⟩ | ⟨hsh, hsup⟩
    · exact ⟨.exempted, m, hsh, Check.gives_bind.mpr
        ⟨(), q, Check.gives_modify.mpr hmark, Check.accepts_accept.mpr rfl⟩⟩
    · exact ⟨.resolvable, q, hsh, resolvedAccess_accepts.mpr ⟨hsup, rfl⟩⟩

theorem dottedRule_accepts {left : Expr} {right : Name} {shape : Check Shape}
    {op : Option Strategy} :
    (s.dottedRule id left right shape op).Accepts p q ↔
      (s.facts.isRowScoped id = true → (s.accessRule id left right shape op).Accepts p q) ∧
      (s.facts.isRowScoped id = false →
        (s.isOptionAccess id left.id = true ∨ s.IsReady id .dottedName) ∧ p = q) := by
  unfold dottedRule
  cases s.facts.isRowScoped id with
  | true => simp
  | false => cases s.isOptionAccess id left.id <;> simp

/-! ## Calls -/

theorem serverSide_gives_true {f : DelegableFunction} {args : List Reading} :
    (s.serverSide f args).Gives p true q ↔
      ∃ c column pattern m, matchCapability? f = some c ∧ args = [column, pattern] ∧
        s.facet.table.has c = true ∧
        (column.verdict (some (.stringMatch (.single c)))).Accepts p m ∧
        s.facts.isRowScoped pattern.id = false ∧ (pattern.verdict none).Accepts m q := by
  unfold serverSide
  split
  next c column pattern hc =>
    simp only [Facet.allowsOnTable, CapabilitySet.hasAll_single]
    cases ht : s.facet.table.has c with
    | false =>
        simp only [Bool.not_false, if_true, Check.gives_pure]
        constructor
        · rintro ⟨h, -⟩
          cases h
        · rintro ⟨c', _, _, _, hc', -, ht', -⟩
          have hcc : c = c' := Option.some.inj (hc.symm.trans hc')
          subst hcc
          rw [ht] at ht'
          cases ht'
    | true =>
        simp only [Bool.not_true, Bool.false_eq_true, if_false]
        constructor
        · intro h
          obtain ⟨v, m, hv, hq⟩ := Check.gives_bind.mp h
          cases v with
          | rejected r => exact absurd (Check.gives_pure.mp hq).1 (by simp)
          | delegable =>
              cases hr : s.facts.isRowScoped pattern.id with
              | true => simp [hr] at hq
              | false =>
                  rw [hr] at hq
                  obtain ⟨w, m', hw, hb⟩ := Check.gives_bind.mp hq
                  obtain ⟨hd, rfl⟩ := Check.gives_pure.mp hb
                  cases w with
                  | rejected r => cases hd
                  | delegable => exact ⟨c, column, pattern, m, hc, rfl, ht, hv, hr, hw⟩
        · rintro ⟨c', column', pattern', m, hc', hargs, -, hv, hr, hw⟩
          have hcc : c = c' := Option.some.inj (hc.symm.trans hc')
          subst hcc
          cases hargs
          refine Check.gives_bind.mpr ⟨.delegable, m, hv, ?_⟩
          simp only [hr]
          exact Check.gives_bind.mpr ⟨.delegable, q, hw, Check.gives_pure.mpr ⟨rfl, rfl⟩⟩
  next hno =>
    constructor
    · intro h
      exact absurd (Check.gives_pure.mp h).1 (by simp)
    · rintro ⟨c, column, pattern, m, hc, hargs, -⟩
      exact absurd hargs (hno c column pattern hc)

/-- How the rule of a call that the source may evaluate ends: the hook says yes; or
it says no and a rejection was noted meanwhile, which is handed on; or it says no
and the call is rejected itself. -/
theorem rowCallRule_gives {args : List Reading} {f : DelegableFunction} {v : Verdict}
    (hf : s.facts.callee? id = some f) :
    (s.rowCallRule id args).Gives p v q ↔
      ((s.serverSide f args).Gives p true q ∧ v = .delegable) ∨
      ∃ m, (s.serverSide f args).Gives p false m ∧
        ((∃ r, m.rejections[p.rejections.length]? = some r ∧ v = .rejected r ∧ m = q) ∨
          (m.rejections[p.rejections.length]? = none ∧
            (s.rejectPlainly id .call .undelegatableFunction
              (Context.function (some f.name))).Gives m v q)) := by
  unfold rowCallRule
  simp only [hf]
  constructor
  · intro h
    obtain ⟨_, _, hget, h⟩ := Check.gives_bind.mp h
    obtain ⟨rfl, rfl⟩ := Check.gives_get.mp hget
    obtain ⟨b, m, hb, h⟩ := Check.gives_bind.mp h
    cases b with
    | true =>
        obtain ⟨rfl, rfl⟩ := Check.gives_pure.mp h
        exact Or.inl ⟨hb, rfl⟩
    | false =>
        obtain ⟨_, _, hget, h⟩ := Check.gives_bind.mp h
        obtain ⟨rfl, rfl⟩ := Check.gives_get.mp hget
        refine Or.inr ⟨m, hb, ?_⟩
        cases hr : m.rejections[p.rejections.length]? with
        | some r =>
            rw [hr] at h
            obtain ⟨rfl, rfl⟩ := Check.gives_pure.mp h
            exact Or.inl ⟨r, rfl, rfl, rfl⟩
        | none =>
            rw [hr] at h
            exact Or.inr ⟨rfl, h⟩
  · intro h
    refine Check.gives_bind.mpr ⟨p, p, Check.gives_get.mpr ⟨rfl, rfl⟩, ?_⟩
    rcases h with ⟨hb, rfl⟩ | ⟨m, hb, h⟩
    · exact Check.gives_bind.mpr ⟨true, q, hb, Check.accepts_accept.mpr rfl⟩
    · refine Check.gives_bind.mpr ⟨false, m, hb, ?_⟩
      refine Check.gives_bind.mpr ⟨m, m, Check.gives_get.mpr ⟨rfl, rfl⟩, ?_⟩
      rcases h with ⟨r, hr, rfl, rfl⟩ | ⟨hr, h⟩
      · rw [hr]
        exact Check.gives_pure.mpr ⟨rfl, rfl⟩
      · rw [hr]
        exact h

theorem rowCallRule_accepts {args : List Reading} :
    (s.rowCallRule id args).Accepts p q ↔
      ∃ f, s.facts.callee? id = some f ∧ (s.serverSide f args).Gives p true q := by
  cases hf : s.facts.callee? id with
  | none => simp [rowCallRule, hf]
  | some f =>
      unfold Check.Accepts
      rw [rowCallRule_gives hf]
      constructor
      · rintro (⟨h, -⟩ | ⟨m, -, ⟨r, -, hr, -⟩ | ⟨-, h⟩⟩)
        · exact ⟨f, rfl, h⟩
        · cases hr
        · exact absurd h not_accepts_rejectPlainly
      · rintro ⟨_, ⟨⟩, h⟩
        exact Or.inl ⟨h, rfl⟩

theorem genericCall_accepts {args : List Reading} {allowVarying : Bool} :
    (s.genericCall id args allowVarying).Accepts p q ↔ s.IsReady id .call ∧
      (s.facts.isRowScoped id = false → p = q) ∧
      (s.facts.isRowScoped id = true →
        (allowVarying = true ∨ s.isConstant p id = true) ∧ (s.rowCallRule id args).Accepts p q) := by
  unfold genericCall
  rw [readiness_andThen_accepts]
  refine and_congr_right fun _ => ?_
  cases s.facts.isRowScoped id with
  | false => simp
  | true =>
      simp only [Bool.not_true, Bool.false_eq_true, if_false, Check.Accepts, Check.gives_bind,
        Check.gives_get, Bool.true_eq_false, false_implies, true_and, forall_const]
      constructor
      · rintro ⟨_, _, ⟨rfl, rfl⟩, h⟩
        cases hv : allowVarying <;> cases hc : s.isConstant p id <;> simp [hv, hc] at h ⊢
        · exact absurd h not_accepts_rejectPlainly
        all_goals exact h
      · rintro ⟨hv, h⟩
        refine ⟨p, p, ⟨rfl, rfl⟩, ?_⟩
        rcases hv with hv | hv <;> simpa [hv] using h

theorem castRule_accepts {args : List Reading} :
    (s.castRule id args).Accepts p q ↔ s.facet.table.has .asType = true ∧
      ∃ source rest, args = source :: rest ∧ (source.verdict none).Accepts p q := by
  unfold castRule
  simp only [Facet.allowsOnTable, CapabilitySet.hasAll_single]
  cases s.facet.table.has .asType with
  | false => simp
  | true =>
      cases args with
      | nil => simp
      | cons source rest => simp

theorem callRule_accepts_user {args : List Reading} (h : s.facts.callee? id = some .user) :
    (s.callRule id args).Accepts p q ↔ p = q := by
  simp [callRule, h]

theorem callRule_of_cast {args : List Reading} (h : s.facts.callee? id = some .asType) :
    s.callRule id args = s.castRule id args := by
  simp [callRule, h]

theorem callRule_of_other {args : List Reading} (hu : s.facts.callee? id ≠ some .user)
    (ha : s.facts.callee? id ≠ some .asType) :
    s.callRule id args = s.genericCall id args false := by
  unfold callRule
  split
  next h => exact absurd h hu
  next h => exact absurd h ha
  next => rfl

/-! ## Operators -/

@[simp]
theorem not_accepts_rejectOperator {op : String} : ¬ (s.rejectOperator id k op).Accepts p q :=
  Check.not_accepts_reject

/-- What an operand of an operator sees above it. -/
def strategyAbove (op : BinaryOp) (onLeft : Bool) : Option Strategy :=
  if op.isLogical then none
  else if op.isMembership then some (.membership op onLeft)
  else some (.binary op)

theorem operandStrategies_eq (op : BinaryOp) :
    operandStrategies op = .ok (strategyAbove op true, strategyAbove op false) := by
  cases op <;> rfl

theorem binaryRule_accepts {op : BinaryOp} {left right : Reading} :
    (s.binaryRule id op left right).Accepts p q ↔ s.IsPure id ∧
      s.facet.table.has op.capability = true ∧
      ¬ (op.isComparison = true ∧ s.facts.isRowScoped left.id = true ∧
        s.facts.isRowScoped right.id = true) ∧
      ∃ m, (left.verdict (strategyAbove op true)).Accepts p m ∧
        (right.verdict (strategyAbove op false)).Accepts m q := by
  unfold binaryRule
  rw [purity_andThen_accepts, operandStrategies_eq]
  refine and_congr_right fun _ => ?_
  simp only [Facet.allowsOnTable, CapabilitySet.hasAll_single]
  cases s.facet.table.has op.capability with
  | false => simp
  | true =>
      by_cases hb : (op.isComparison && s.facts.isRowScoped left.id &&
          s.facts.isRowScoped right.id) = true
      · simp only [Bool.and_eq_true, and_assoc] at hb
        simp [hb]
      · have hb' := hb
        simp only [Bool.and_eq_true, and_assoc] at hb'
        simp only [Bool.not_true, Bool.false_eq_true, if_false, hb, hb', true_and,
          not_false_eq_true]
        exact Check.accepts_andThen

/-- What the operand sees above it: a negated condition is still a condition, a negated number
has to be negated at the source. -/
def strategyUnder : UnaryOp → Option Strategy
  | .not => none
  | .negate => some (.unary .negate)

theorem operandStrategy_eq (op : UnaryOp) : operandStrategy op = strategyUnder op := by
  cases op <;> rfl

theorem unaryRule_accepts {op : UnaryOp} {operand : Reading} :
    (s.unaryRule id op operand).Accepts p q ↔ s.IsPure id ∧
      s.facet.table.has op.capability = true ∧
      (operand.verdict (strategyUnder op)).Accepts p q := by
  unfold unaryRule
  rw [purity_andThen_accepts, operandStrategy_eq]
  simp only [Facet.allowsOnTable, CapabilitySet.hasAll_single]
  cases s.facet.table.has op.capability <;> simp

@[simp]
theorem not_accepts_otherRule : ¬ (s.otherRule id).Accepts p q := by
  unfold otherRule
  rw [purity_andThen_accepts]
  simp

theorem rowRule_accepts {rule : Check Verdict} :
    (s.rowRule id k rule).Accepts p q ↔
      (s.facts.isRowScoped id = true → rule.Accepts p q) ∧
      (s.facts.isRowScoped id = false → s.IsReady id k ∧ p = q) := by
  unfold rowRule
  cases s.facts.isRowScoped id <;> simp

/-! ## Left sides -/

/-- The left sides end in a bare name that is exempt and bound by the condition. -/
def ExemptSpine (s : Scope) (e : Expr) : Prop :=
  ∃ id name, e.spineBottom = .first id name ∧ s.facts.isExempted id = true ∧
    s.facts.isLambdaScoped id = true

/-- As a left side, a formula looks like what it ends in. -/
theorem judge_shape (s : Scope) : ∀ e : Expr, (s.judge e).shape = (s.judge e.spineBottom).shape
  | .dotted _ left _ => judge_shape s left
  | .call .. | .first .. | .binary .. | .unary .. | .literal .. | .other .. => rfl

theorem shape_gives_exempted {e : Expr} :
    (s.judge e).shape.Gives p .exempted q ↔ s.ExemptSpine e ∧ p = q := by
  rw [judge_shape, ExemptSpine]
  cases hb : e.spineBottom with
  | dotted id left right => exact absurd hb (Expr.spineBottom_ne_dotted e)
  | first id name =>
      simp only [judge, Check.gives_pure, Expr.first.injEq]
      by_cases hx : (s.facts.isExempted id && s.facts.isLambdaScoped id) = true
      · have hx' := hx
        simp only [Bool.and_eq_true] at hx'
        simp [hx']
      · have hx' := hx
        simp only [Bool.and_eq_true, not_and] at hx'
        simp only [hx, Bool.false_eq_true, if_false, reduceCtorEq, false_and, false_iff]
        rintro ⟨⟨_, _, ⟨rfl, rfl⟩, he, hl⟩, -⟩
        exact hx' he hl
  | call id head args =>
      simp only [judge, reduceCtorEq, false_and, exists_false, iff_false]
      intro h
      obtain ⟨v, m, -, hv⟩ := Check.gives_bind.mp h
      cases v <;> exact absurd (Check.gives_pure.mp hv).1 (by simp)
  | binary id op left right => simp [judge]
  | unary id op operand => simp [judge]
  | literal id value => simp [judge]
  | other id description => simp [judge]

theorem shape_gives_resolvable {e : Expr} :
    (s.judge e).shape.Gives p .resolvable q ↔
      (∃ id name, e.spineBottom = .first id name ∧ ¬ s.ExemptSpine e ∧ p = q) ∨
      (∃ id head args, e.spineBottom = .call id head args ∧
        (s.callRule id (s.judgeArgs args)).Accepts p q) := by
  rw [judge_shape, ExemptSpine]
  cases hb : e.spineBottom with
  | dotted id left right => exact absurd hb (Expr.spineBottom_ne_dotted e)
  | first id name =>
      simp only [judge, Check.gives_pure, Expr.first.injEq]
      by_cases hx : (s.facts.isExempted id && s.facts.isLambdaScoped id) = true
      · have hx' := hx
        simp only [Bool.and_eq_true] at hx'
        simp [hx']
      · have hx' := hx
        simp only [Bool.and_eq_true, not_and] at hx'
        simp only [hx, Bool.false_eq_true, if_false, true_and, reduceCtorEq, false_and,
          exists_false, or_false]
        constructor
        · rintro rfl
          refine ⟨id, name, ⟨rfl, rfl⟩, ?_, rfl⟩
          rintro ⟨_, _, ⟨rfl, rfl⟩, he, hl⟩
          exact hx' he hl
        · rintro ⟨_, _, -, -, rfl⟩
          rfl
  | call id head args =>
      simp only [judge, reduceCtorEq, false_and, exists_false, false_or, Expr.call.injEq]
      constructor
      · intro h
        obtain ⟨v, m, hv, hm⟩ := Check.gives_bind.mp h
        cases v with
        | delegable =>
            obtain ⟨-, rfl⟩ := Check.gives_pure.mp hm
            exact ⟨id, head, args, ⟨rfl, rfl, rfl⟩, hv⟩
        | rejected r => exact absurd (Check.gives_pure.mp hm).1 (by simp)
      · rintro ⟨_, _, _, ⟨rfl, rfl, rfl⟩, hv⟩
        exact Check.gives_bind.mpr ⟨.delegable, q, hv, Check.gives_pure.mpr ⟨rfl, rfl⟩⟩
  | binary id op left right => simp [judge]
  | unary id op operand => simp [judge]
  | literal id value => simp [judge]
  | other id description => simp [judge]

end Scope

/-! ## Validation -/

namespace Session

/-- The validation ends with a report, and the report says that the formula can be
delegated. -/
def Delegates (session : Session) (t : Tracker) (s : Scope) (root : Expr)
    (op : Option Strategy) : Prop :=
  ∃ report after, session.validate t s root op = .ok (report, after) ∧ report.delegable = true

theorem delegates_iff {session : Session} {t : Tracker} {s : Scope} {root : Expr}
    {op : Option Strategy} :
    session.Delegates t s root op ↔
      s.function.name ≠ "" ∧ ∃ q, (s.validateNode root op).Accepts session.newPass q := by
  unfold Delegates validate
  by_cases hn : s.function.name = ""
  · simp [hn]
  · simp only [hn, if_false, ne_eq, not_false_eq_true, true_and]
    cases hr : (s.validateNode root op).run session.newPass with
    | error v =>
        constructor
        · rintro ⟨_, _, h, -⟩
          cases h
        · rintro ⟨q, hq⟩
          exact absurd (hr.symm.trans hq) (by simp)
    | ok x =>
        obtain ⟨v, m⟩ := x
        constructor
        · rintro ⟨_, _, h, hd⟩
          cases h
          cases v with
          | delegable => exact ⟨m, hr⟩
          | rejected r => cases hd
        · rintro ⟨q, hq⟩
          cases hr.symm.trans hq
          exact ⟨_, _, rfl, rfl⟩

end Session

end Delegability
