/-
# `Delegability.Proofs.Unrecorded` — nodes about which nothing is known

A node without a record is not taken to be pure, and of all its facts only this one stands
against it: it does not depend on the row, it does not wait, it calls nothing, it has no
type.  So the rules ask one question about it, whatever its kind (literals apart, about
which nothing is asked), and this question is waived where effects are allowed:

    no record  ⟹  the rule of the node is `purity`          (`validateNode_of_unrecorded`)
    effects not allowed  ⟹  what is delegable is recorded, all the way down the operators
    effects allowed      ⟹  a formula is delegable once the record of its root is lost

The way down is `Scope.Reaches`.  Forgetting a node may cut that way, since identities may be
shared and an operator above may go with it; but then that operator is the node to blame
(`Reaches.forget`).
-/
import Delegability.Proofs.Gate

namespace Delegability

/-! ## Facts that are not there -/

namespace FactTable

variable {t : FactTable} {id id' : NodeId}

theorem known_of_unrecorded (h : t.facts? id = none) (p : NodeFacts → Bool) :
    t.known id p = false := by
  rw [known, h]
  rfl

theorem facts?_erase_self (t : FactTable) (id : NodeId) : (t.erase id).facts? id = none :=
  t.facts.get?_erase_self id

theorem facts?_erase_of_ne (t : FactTable) (h : id' ≠ id) :
    (t.erase id).facts? id' = t.facts? id' :=
  t.facts.get?_erase_of_ne fun hc => h (Std.LawfulEqCmp.eq_of_compare hc)

end FactTable

namespace Scope

variable {s : Scope} {id : NodeId} {e root x : Expr} {p q : Pass}
  {op a b : Option Strategy}

/-! ## The one question -/

theorem gated_of_unrecorded (h : s.facts.facts? e.id = none) (hl : e.kind ≠ .literal) :
    s.Gated e := by
  cases e with
  | literal id value => exact absurd rfl hl
  | call id head args =>
      have hcallee : s.facts.callee? id = none := congrArg (Option.bind · NodeFacts.callee?) h
      show s.facts.callee? id ≠ some .user ∧ s.facts.callee? id ≠ some .asType
      rw [hcallee]
      exact ⟨Option.some_ne_none _ |>.symm, Option.some_ne_none _ |>.symm⟩
  | dotted id left right =>
      have htype : s.facts.type? id = none := congrArg (Option.bind · NodeFacts.type?) h
      -- what is picked from an option set or a view would have a type
      rintro - (⟨-, hpick⟩ | ⟨-, hpick⟩)
      · cases htype.symm.trans hpick
      · cases htype.symm.trans hpick
  | first | binary | unary | other => trivial

/-- Of a node without a record it is asked whether it has effects, and nothing else. -/
theorem validateNode_of_unrecorded (h : s.facts.facts? e.id = none) (hl : e.kind ≠ .literal) :
    s.validateNode e op = s.purity e.id e.kind := by
  have hrow : s.facts.isRowScoped e.id = false := FactTable.known_of_unrecorded h _
  have hsync : s.facts.isAsync e.id = false := FactTable.known_of_unrecorded h _
  rw [validateNode_of_outside (gated_of_unrecorded h hl) hrow, readiness_of_sync hsync]

theorem unrecorded_accepts (h : s.facts.facts? e.id = none) (hl : e.kind ≠ .literal) :
    (s.validateNode e op).Accepts p q ↔ s.facts.features.allowImpure = true ∧ p = q := by
  have hpure : s.facts.isPure e.id = false := FactTable.known_of_unrecorded h _
  rw [validateNode_of_unrecorded h hl, purity_accepts, IsPure, hpure]
  simp

/-! ## Down the operators -/

/-- What the operators lead to is pushed. -/
theorem Reaches.pushed {need : Option CapabilitySet} (hx : s.Reaches e a x b)
    (he : s.Pushed root need e (a.map Strategy.requires)) :
    s.Pushed root need x (b.map Strategy.requires) := by
  induction hx with
  | here => exact he
  | @left id op _ _ _ _ _ hrow _ ih =>
      refine ih ?_
      rw [strategyAbove_need]
      exact .left he hrow
  | @right id op _ _ _ _ _ hrow _ ih =>
      refine ih ?_
      rw [strategyAbove_need]
      exact .right he hrow
  | @operand id op _ _ _ _ hrow _ ih =>
      refine ih ?_
      rw [strategyUnder_need]
      exact .operand he hrow

/-- A node that the operators lead to and that has no record is accepted for one reason. -/
theorem Reaches.allowImpure_of_unrecorded (hx : s.Reaches root op x b) (hl : x.kind ≠ .literal)
    (h : s.facts.facts? x.id = none) (hacc : (s.validateNode root op).Accepts p q) :
    s.facts.features.allowImpure = true := by
  obtain ⟨o, m, m', -, hx'⟩ := (hx.pushed .root).accepted ⟨op, p, q, rfl, hacc⟩
  exact ((unrecorded_accepts h hl).mp hx').1

/-- The scope without the record of a node. -/
def forget (s : Scope) (id : NodeId) : Scope := { s with facts := s.facts.erase id }

theorem isRowScoped_forget {id' : NodeId} (h : id' ≠ id) :
    (s.forget id).facts.isRowScoped id' = s.facts.isRowScoped id' :=
  congrArg (Option.any _) (s.facts.facts?_erase_of_ne h)

/-- Once a node is forgotten the operators still lead to a node of that identity: to itself, or
to the first operator on the way that shares it. -/
theorem Reaches.forget (hx : s.Reaches e a x b) (hl : x.kind ≠ .literal) :
    ∃ y c, (s.forget x.id).Reaches e a y c ∧ y.id = x.id ∧ y.kind ≠ .literal := by
  induction hx with
  | @here e a => exact ⟨e, a, .here, rfl, hl⟩
  | @left id op left right a x _ hrow _ ih =>
      by_cases hid : id = x.id
      · exact ⟨.binary id op left right, a, .here, hid, by simp [Expr.kind]⟩
      · obtain ⟨y, c, hy, hyx⟩ := ih hl
        exact ⟨y, c, .left ((isRowScoped_forget hid).trans hrow) hy, hyx⟩
  | @right id op left right a x _ hrow _ ih =>
      by_cases hid : id = x.id
      · exact ⟨.binary id op left right, a, .here, hid, by simp [Expr.kind]⟩
      · obtain ⟨y, c, hy, hyx⟩ := ih hl
        exact ⟨y, c, .right ((isRowScoped_forget hid).trans hrow) hy, hyx⟩
  | @operand id op operand a x _ hrow _ ih =>
      by_cases hid : id = x.id
      · exact ⟨.unary id op operand, a, .here, hid, by simp [Expr.kind]⟩
      · obtain ⟨y, c, hy, hyx⟩ := ih hl
        exact ⟨y, c, .operand ((isRowScoped_forget hid).trans hrow) hy, hyx⟩

end Scope

/-- **Without a record.**  Of a formula that is delegable, the root and whatever the operators
that depend on the row lead to is recorded, literals apart; or effects are allowed.  Where they
are not, forgetting any of these nodes makes the formula fail; where they are, forgetting its
root makes any formula delegable. -/
theorem Session.recorded_or_allowImpure (session : Session) (t : Tracker) (s : Scope) (root : Expr)
    (op : Option Strategy) :
    (session.Delegates t s root op → ∀ x above, s.Reaches root op x above → x.kind ≠ .literal →
      (∃ f, s.facts.facts? x.id = some f) ∨ s.facts.features.allowImpure = true) ∧
    (s.facts.features.allowImpure = false → ∀ x above, s.Reaches root op x above →
      x.kind ≠ .literal → ¬ session.Delegates t (s.forget x.id) root op) ∧
    (s.facts.features.allowImpure = true → root.kind ≠ .literal → s.function.name ≠ "" →
      session.Delegates t (s.forget root.id) root op) := by
  refine ⟨?_, ?_, ?_⟩
  · intro h x above hx hl
    obtain ⟨-, q, hacc⟩ := Session.delegates_iff.mp h
    cases hf : s.facts.facts? x.id with
    | some f => exact Or.inl ⟨f, rfl⟩
    | none => exact Or.inr (hx.allowImpure_of_unrecorded hl hf hacc)
  · intro himpure x above hx hl h
    obtain ⟨-, q, hacc⟩ := Session.delegates_iff.mp h
    obtain ⟨y, c, hy, hyx, hyl⟩ := hx.forget hl
    have hlost : (s.forget x.id).facts.facts? y.id = none := by
      rw [hyx]
      exact s.facts.facts?_erase_self x.id
    have hallow := hy.allowImpure_of_unrecorded hyl hlost hacc
    exact absurd (himpure.symm.trans hallow) Bool.false_ne_true
  · intro himpure hl hn
    have hlost : (s.forget root.id).facts.facts? root.id = none :=
      s.facts.facts?_erase_self root.id
    exact Session.delegates_iff.mpr
      ⟨hn, session.newPass, (Scope.unrecorded_accepts hlost hl).mpr ⟨himpure, rfl⟩⟩

/-! ## A column that the source does not describe

`Hidden = …`, where effects are allowed.  With its facts the column is rejected; without them it
no longer counts as a column. -/

namespace Sample

def hidden : Name := ⟨"Hidden", by decide⟩

def comparison : Expr := .binary 2 .equal (.first 0 hidden) (.literal 1 .null)

def lenient : Scope where
  function := .filter
  facts := { facts := (facts.insert 0 (column hidden)).facts, features := { allowImpure := true } }
  facet := facet

theorem forgetting_fails_or_delegates :
    ({} : Session).Delegates silent scope formula none ∧
      scope.Reaches formula none (.first 0 name) (some (.binary .equal)) ∧
      (∃ f, scope.facts.facts? 0 = some f) ∧
      ¬ ({} : Session).Delegates silent (scope.forget 0) formula none ∧
      ({} : Session).Delegates silent (lenient.forget 2) comparison none := by
  have hx : scope.Reaches formula none (.first 0 name) (some (.binary .equal)) :=
    .left rfl (.left rfl .here)
  have hl : (Expr.first 0 name).kind ≠ .literal := by decide
  obtain ⟨hrecorded, hforgotten, -⟩ :=
    Session.recorded_or_allowImpure {} silent scope formula none
  obtain ⟨-, -, hlenient⟩ := Session.recorded_or_allowImpure {} silent lenient comparison none
  have hlost : ({} : Session).Delegates silent (lenient.forget 2) comparison none :=
    hlenient rfl (by decide) (by decide)
  rcases hrecorded formula_delegates _ _ hx hl with hf | himpure
  · exact ⟨formula_delegates, hx, hf, hforgotten rfl (.first 0 name) _ hx hl, hlost⟩
  · cases himpure

theorem hidden_delegates_once_forgotten :
    ¬ ({} : Session).Delegates silent lenient comparison none ∧
      (lenient.forget 0).Reaches comparison none (.first 0 hidden) (some (.binary .equal)) ∧
      (Expr.first 0 hidden).kind ≠ .literal ∧ (lenient.forget 0).facts.facts? 0 = none ∧
      ({} : Session).Delegates silent (lenient.forget 0) comparison none := by
  refine ⟨?_, .left rfl .here, by decide, rfl, _, _, rfl, rfl⟩
  rintro ⟨report, after, h, hd⟩
  have hrun : (({} : Session).validate silent lenient comparison none).map (·.1.delegable) =
      .ok false := rfl
  rw [h] at hrun
  exact absurd (hd.symm.trans (Except.ok.inj hrun)) (by decide)

end Sample

end Delegability
