/-
# `Delegability.Proofs.Locality` — a formula is judged by the facts of its own nodes

What is recorded about nodes that a formula does not have is not read when it is judged.
Two scopes that agree on the formula's nodes read it alike, and alike means the same
checks: not only the same verdict, but the same reasons, findings and marks, whatever the
pass.

    s.AgreeOn N u    the same function, facet and features, and the same facts on `N`

One lemma per rule turns `u` into `s`; `judge_eq` puts them together along the formula.
-/
import Delegability.Proofs.Formula

namespace Delegability.Scope

/-- The scopes agree, as far as facts are concerned on the nodes of `N` only. -/
structure AgreeOn (N : NodeId → Prop) (s u : Scope) : Prop where
  function : u.function = s.function
  facet : u.facet = s.facet
  features : u.facts.features = s.facts.features
  facts : ∀ id, N id → u.facts.facts? id = s.facts.facts? id

variable {N : NodeId → Prop} {s u : Scope} {id : NodeId} {k : NodeKind} {op : Option Strategy}

/-! ## Facts -/

namespace AgreeOn

theorem known (h : s.AgreeOn N u) (hid : N id) (p : NodeFacts → Bool) :
    u.facts.known id p = s.facts.known id p :=
  congrArg (Option.any p) (h.facts id hid)

theorem isRowScoped (h : s.AgreeOn N u) (hid : N id) :
    u.facts.isRowScoped id = s.facts.isRowScoped id := h.known hid _

theorem isAsync (h : s.AgreeOn N u) (hid : N id) : u.facts.isAsync id = s.facts.isAsync id :=
  h.known hid _

theorem isPure (h : s.AgreeOn N u) (hid : N id) : u.facts.isPure id = s.facts.isPure id :=
  h.known hid _

theorem type? (h : s.AgreeOn N u) (hid : N id) : u.facts.type? id = s.facts.type? id :=
  congrArg (Option.bind · NodeFacts.type?) (h.facts id hid)

theorem name? (h : s.AgreeOn N u) (hid : N id) : u.facts.name? id = s.facts.name? id :=
  congrArg (Option.bind · NodeFacts.name?) (h.facts id hid)

theorem callee? (h : s.AgreeOn N u) (hid : N id) : u.facts.callee? id = s.facts.callee? id :=
  congrArg (Option.bind · NodeFacts.callee?) (h.facts id hid)

theorem columnPath? (h : s.AgreeOn N u) {e : Expr} (he : ∀ x ∈ e.postorder, N x.id) :
    u.facts.columnPath? e = s.facts.columnPath? e := by
  induction e using Expr.ind with
  | first id name =>
      have hid : N id := he _ (Expr.self_mem_postorder _)
      rw [FactTable.columnPath?, FactTable.columnPath?, h.name? hid]
  | dotted id left right ih =>
      rw [FactTable.columnPath?, FactTable.columnPath?,
        ih fun x hx => he x (Expr.mem_postorder_dotted hx)]
  | call | binary | unary | literal | other => rfl

/-! ## Rules without nodes below -/

theorem rejectPlainly (h : s.AgreeOn N u) {status : Status} {context : String} :
    u.rejectPlainly id k status context = s.rejectPlainly id k status context := by
  unfold Scope.rejectPlainly
  rw [h.function]

theorem purity (h : s.AgreeOn N u) (hid : N id) : u.purity id k = s.purity id k := by
  unfold Scope.purity
  rw [h.isPure hid, h.isAsync hid, h.features, h.rejectPlainly]

theorem readiness (h : s.AgreeOn N u) (hid : N id) : u.readiness id k = s.readiness id k := by
  unfold Scope.readiness
  rw [h.purity hid, h.isAsync hid, h.features, h.rejectPlainly]

theorem rejectEntity (h : s.AgreeOn N u) {identity : String} :
    u.rejectEntity id k identity = s.rejectEntity id k identity := by
  unfold Scope.rejectEntity
  rw [h.rejectPlainly]

theorem columnRule (h : s.AgreeOn N u) (hid : N id) {name : Name} {required : CapabilitySet} :
    u.columnRule id name op required = s.columnRule id name op required := by
  unfold Scope.columnRule
  rw [h.isRowScoped hid, h.name? hid, h.rejectPlainly]
  simp only [h.rejectEntity]
  rfl

theorem firstRule (h : s.AgreeOn N u) (hid : N id) {name : Name} :
    u.firstRule id name op = s.firstRule id name op := by
  unfold Scope.firstRule
  rw [h.readiness hid, h.isRowScoped hid, h.function, h.columnRule hid]

theorem rowRule (h : s.AgreeOn N u) (hid : N id) {rule : Check Verdict} :
    u.rowRule id k rule = s.rowRule id k rule := by
  unfold Scope.rowRule
  rw [h.isRowScoped hid, h.readiness hid]

theorem otherRule (h : s.AgreeOn N u) (hid : N id) : u.otherRule id = s.otherRule id := by
  unfold Scope.otherRule
  rw [h.purity hid, h.rejectPlainly]

/-! ## Rules with nodes below -/

theorem isOuterRecord (h : s.AgreeOn N u) {left : Expr} (hl : N left.id) :
    u.isOuterRecord left = s.isOuterRecord left := by
  cases left with
  | first id name =>
      have hid : N id := hl
      rw [Scope.isOuterRecord, Scope.isOuterRecord, h.name? hid]
  | call | dotted | binary | unary | literal | other => rfl

theorem resolvedAccess (h : s.AgreeOn N u) {left : Expr} {right : Name}
    (he : ∀ x ∈ (Expr.dotted id left right).postorder, N x.id) :
    u.resolvedAccess id left right op = s.resolvedAccess id left right op := by
  have hl : N left.id := he left (Expr.mem_postorder_dotted (Expr.self_mem_postorder left))
  unfold Scope.resolvedAccess
  rw [h.isOuterRecord hl, h.type? hl, h.columnPath? he, h.facet, h.function]
  simp only [h.rejectEntity]
  rfl

theorem dottedRule (h : s.AgreeOn N u) {left : Expr} {right : Name} {shape : Check Shape}
    (he : ∀ x ∈ (Expr.dotted id left right).postorder, N x.id) :
    u.dottedRule id left right shape op = s.dottedRule id left right shape op := by
  have hid : N id := he _ (Expr.self_mem_postorder _)
  have hl : N left.id := he left (Expr.mem_postorder_dotted (Expr.self_mem_postorder left))
  unfold Scope.dottedRule Scope.accessRule Scope.isOptionAccess
  rw [h.isRowScoped hid, h.purity hid, h.readiness hid, h.type? hid, h.type? hl, h.rejectPlainly,
    h.resolvedAccess he]

theorem serverSide (h : s.AgreeOn N u) {f : DelegableFunction} {args : List Reading}
    (hargs : ∀ r ∈ args, N r.id) : u.serverSide f args = s.serverSide f args := by
  unfold Scope.serverSide
  rw [h.facet]
  split
  next c column pattern hc => rw [h.isRowScoped (hargs pattern (by simp))]
  next => rfl

theorem rowCallRule (h : s.AgreeOn N u) (hid : N id) {args : List Reading}
    (hargs : ∀ r ∈ args, N r.id) : u.rowCallRule id args = s.rowCallRule id args := by
  unfold Scope.rowCallRule
  rw [h.callee? hid]
  simp only [h.rejectPlainly, h.serverSide hargs]

theorem genericCall (h : s.AgreeOn N u) (hid : N id) {args : List Reading} {allowVarying : Bool}
    (hargs : ∀ r ∈ args, N r.id) :
    u.genericCall id args allowVarying = s.genericCall id args allowVarying := by
  have hconst : ∀ p, u.isConstant p id = s.isConstant p id := fun p =>
    congrArg (· || p.marks.contains id) (h.known hid _)
  unfold Scope.genericCall
  rw [h.readiness hid, h.isRowScoped hid, h.rejectPlainly, h.rowCallRule hid hargs]
  simp only [hconst]

theorem castRule (h : s.AgreeOn N u) {args : List Reading} :
    u.castRule id args = s.castRule id args := by
  unfold Scope.castRule
  simp only [h.facet, h.rejectPlainly]

theorem callRule (h : s.AgreeOn N u) (hid : N id) {args : List Reading}
    (hargs : ∀ r ∈ args, N r.id) : u.callRule id args = s.callRule id args := by
  unfold Scope.callRule
  rw [h.callee? hid, h.castRule, h.genericCall hid hargs]

theorem binaryRule (h : s.AgreeOn N u) (hid : N id) {op : BinaryOp} {left right : Reading}
    (hl : N left.id) (hr : N right.id) :
    u.binaryRule id op left right = s.binaryRule id op left right := by
  unfold Scope.binaryRule
  rw [h.purity hid, h.facet, h.isRowScoped hl, h.isRowScoped hr, h.rejectPlainly]
  rfl

theorem unaryRule (h : s.AgreeOn N u) (hid : N id) {op : UnaryOp} {operand : Reading} :
    u.unaryRule id op operand = s.unaryRule id op operand := by
  unfold Scope.unaryRule
  rw [h.purity hid, h.facet]
  rfl

/-! ## Every formula -/

/-- A formula is read alike by scopes that agree on its nodes. -/
theorem judge_eq (h : s.AgreeOn N u) {e : Expr} (he : ∀ x ∈ e.postorder, N x.id) :
    u.judge e = s.judge e := by
  induction e using Expr.ind with
  | call id head args ih =>
      have hid : N id := he _ (Expr.self_mem_postorder _)
      have hargs : ∀ a ∈ args, ∀ x ∈ a.postorder, N x.id := fun a ha x hx =>
        he x (Expr.mem_postorder_arg ha hx)
      have heq : u.judgeArgs args = s.judgeArgs args := by
        rw [judgeArgs_eq_map, judgeArgs_eq_map]
        exact List.map_congr_left fun a ha => ih a ha (hargs a ha)
      have hids : ∀ r ∈ s.judgeArgs args, N r.id := forall_mem_judgeArgs fun a ha => by
        rw [judge_id]
        exact hargs a ha a (Expr.self_mem_postorder a)
      rw [judge, judge, heq, h.callRule hid hids]
  | dotted id left right ih =>
      have hl : ∀ x ∈ left.postorder, N x.id := fun x hx => he x (Expr.mem_postorder_dotted hx)
      rw [judge, judge, ih hl]
      congr 1
      funext op
      exact h.dottedRule he
  | first id name =>
      have hid : N id := he _ (Expr.self_mem_postorder _)
      rw [judge, judge]
      congr 1
      · funext op
        exact h.firstRule hid
      · unfold FactTable.isExempted FactTable.isLambdaScoped
        rw [h.known hid, h.known hid]
  | binary id op left right ihl ihr =>
      have hid : N id := he _ (Expr.self_mem_postorder _)
      have hl : ∀ x ∈ left.postorder, N x.id := fun x hx => he x (Expr.mem_postorder_left hx)
      have hr : ∀ x ∈ right.postorder, N x.id := fun x hx => he x (Expr.mem_postorder_right hx)
      have hlid : N (s.judge left).id := by
        rw [judge_id]
        exact hl left (Expr.self_mem_postorder left)
      have hrid : N (s.judge right).id := by
        rw [judge_id]
        exact hr right (Expr.self_mem_postorder right)
      rw [judge, judge, ihl hl, ihr hr, h.rowRule hid,
        h.binaryRule hid hlid hrid]
  | unary id op operand ih =>
      have hid : N id := he _ (Expr.self_mem_postorder _)
      have ho : ∀ x ∈ operand.postorder, N x.id := fun x hx =>
        he x (Expr.mem_postorder_operand hx)
      rw [judge, judge, ih ho, h.rowRule hid, h.unaryRule hid]
  | literal id value => rfl
  | other id description =>
      have hid : N id := he _ (Expr.self_mem_postorder _)
      rw [judge, judge, h.rowRule hid, h.otherRule hid]

theorem validateNode_eq (h : s.AgreeOn N u) {e : Expr} (he : ∀ x ∈ e.postorder, N x.id)
    (op : Option Strategy) : u.validateNode e op = s.validateNode e op :=
  congrArg (Reading.verdict · op) (h.judge_eq he)

end AgreeOn

end Delegability.Scope
