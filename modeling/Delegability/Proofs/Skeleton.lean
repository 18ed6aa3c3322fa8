/-
# `Delegability.Proofs.Skeleton` — operators laid out flat

Below an operator that depends on the row stand other operators that depend on the row, and
sooner or later something else, a leaf.  The rules walk down this skeleton and stop at the
first thing that stands against the formula.  Laid out flat, left side first, the walk is a
list of hurdles:

    hurdles (l ⊕ r)  =  effects ⊕, operator ⊕, sides ⊕  ++  hurdles l  ++  hurdles r
    hurdles (⊖ x)    =  effects ⊖, operator ⊖           ++  hurdles x
    hurdles leaf     =  [leaf, under the operator above it]

There are two steps.  `validateNode_eq_inOrder` is an equation between checks: the walk *is*
the hurdles taken one after the other, whatever the pass.  It rests on the laws of
`Check.andThen` alone.  `inOrder_ends` then follows the pass: as long as nothing is rejected a
hurdle is met as in a pass of its own, because what accepts finds nothing (`judge_silent`)
and marks only what no later hurdle reads (`Step.alikeOn`, `judge_respects`).

Main result: a formula is delegable iff all of its skeleton stands, and otherwise the reason
is that of the first hurdle it fails at (`validateNode_blames_first`).
-/
import Delegability.Proofs.History

namespace Delegability

/-! ## Checks one after the other -/

namespace Check

theorem accept_andThen (c : Check Verdict) : andThen accept c = c := rfl

theorem andThen_accept (c : Check Verdict) : andThen c accept = c := by
  conv_rhs => rw [← bind_pure c]
  unfold andThen
  congr 1
  funext v
  cases v with
  | delegable => rfl
  | rejected r => rfl

theorem reject_andThen (r : Rejection) (c : Check Verdict) : andThen (reject r) c = reject r := rfl

theorem andThen_assoc (a b c : Check Verdict) :
    andThen (andThen a b) c = andThen a (andThen b c) := by
  unfold andThen
  rw [bind_assoc]
  congr 1
  funext v
  cases v with
  | delegable => rfl
  | rejected r => exact pure_bind _ _

/-- A rejection on a condition, or else the rest. -/
theorem ite_andThen {b : Prop} [Decidable b] (r : Rejection) (c : Check Verdict) :
    andThen (if b then reject r else accept) c = if b then reject r else c := by
  split
  · exact reject_andThen r c
  · exact accept_andThen c

/-- Checks in their order, as far as they accept. -/
def inOrder (cs : List (Check Verdict)) : Check Verdict := cs.foldr andThen accept

theorem inOrder_append (cs ds : List (Check Verdict)) :
    inOrder (cs ++ ds) = andThen (inOrder cs) (inOrder ds) := by
  induction cs with
  | nil => rfl
  | cons c cs ih =>
      show andThen c (inOrder (cs ++ ds)) = andThen (andThen c (inOrder cs)) (inOrder ds)
      rw [ih, andThen_assoc]

end Check

/-- Of a node that does not wait only its effects are asked. -/
theorem Scope.readiness_of_sync {s : Scope} {id : NodeId} (h : s.facts.isAsync id = false)
    (k : NodeKind) : s.readiness id k = s.purity id k := by
  rw [readiness, h]
  exact Check.andThen_accept _

/-! ## Hurdles -/

/-- What has to be got over on the way through the skeleton. -/
inductive Hurdle where
  /-- The operator may have no effects. -/
  | effects (id : NodeId) (k : NodeKind)
  /-- The source has to know the operator. -/
  | operator (id : NodeId) (k : NodeKind) (text : String) (c : Capability)
  /-- A comparison may not have the row on both sides. -/
  | sides (id : NodeId) (op : BinaryOp) (left right : NodeId)
  /-- What is not an operator that depends on the row is judged by itself. -/
  | leaf (e : Expr) (above : Option Strategy)

namespace Scope

/-- The hurdles of a formula, each operator's own before those of its operands. -/
def hurdles (s : Scope) : Expr → Option Strategy → List Hurdle
  | .binary id op left right, above =>
      if s.facts.isRowScoped id then
        .effects id .binaryOp :: .operator id .binaryOp op.text op.capability ::
          .sides id op left.id right.id ::
          (s.hurdles left (strategyAbove op true) ++ s.hurdles right (strategyAbove op false))
      else [.leaf (.binary id op left right) above]
  | .unary id op operand, above =>
      if s.facts.isRowScoped id then
        .effects id .unaryOp :: .operator id .unaryOp op.text op.capability ::
          s.hurdles operand (strategyUnder op)
      else [.leaf (.unary id op operand) above]
  | e, above => [.leaf e above]

/-- The hurdle as a check of the pass. -/
def hurdleCheck (s : Scope) : Hurdle → Check Verdict
  | .effects id k => s.purity id k
  | .operator id k text c =>
      if !s.facet.allowsOnTable (.single c) then s.rejectOperator id k text else Check.accept
  | .sides id op left right =>
      if op.isComparison && s.facts.isRowScoped left && s.facts.isRowScoped right then
        s.rejectPlainly id .binaryOp .other (Context.bothRowScoped op.text)
      else Check.accept
  | .leaf e above => s.validateNode e above

theorem inOrder_leaf (s : Scope) (e : Expr) (above : Option Strategy) :
    Check.inOrder ([Hurdle.leaf e above].map s.hurdleCheck) = s.validateNode e above :=
  Check.andThen_accept _

/-- The walk over the skeleton is its hurdles in order. -/
theorem validateNode_eq_inOrder (s : Scope) (e : Expr) (above : Option Strategy) :
    s.validateNode e above = Check.inOrder ((s.hurdles e above).map s.hurdleCheck) := by
  induction e using Expr.ind generalizing above with
  | binary id op left right ihl ihr =>
      rw [hurdles]
      split
      next hrow =>
        have hrule : s.validateNode (.binary id op left right) above =
            s.binaryRule id op (s.judge left) (s.judge right) := if_pos hrow
        have hl : (s.judge left).verdict (strategyAbove op true) =
            Check.inOrder ((s.hurdles left (strategyAbove op true)).map s.hurdleCheck) := ihl _
        have hr : (s.judge right).verdict (strategyAbove op false) =
            Check.inOrder ((s.hurdles right (strategyAbove op false)).map s.hurdleCheck) := ihr _
        rw [hrule, binaryRule, operandStrategies_eq, judge_id, judge_id]
        show Check.andThen _ (if _ then _ else if _ then _ else Check.andThen _ _) = _
        rw [hl, hr, ← Check.inOrder_append, ← List.map_append]
        -- both sides now ask the three questions of the operator and go on with one list
        show _ = Check.andThen (s.purity id .binaryOp) (Check.andThen _ (Check.andThen _ _))
        rw [hurdleCheck, hurdleCheck, rejectPlainly, rejectOperator, Check.ite_andThen,
          Check.ite_andThen]
        rfl
      next => exact (s.inOrder_leaf _ above).symm
  | unary id op operand ih =>
      rw [hurdles]
      split
      next hrow =>
        have hrule : s.validateNode (.unary id op operand) above =
            s.unaryRule id op (s.judge operand) := if_pos hrow
        have ho : (s.judge operand).verdict (strategyUnder op) =
            Check.inOrder ((s.hurdles operand (strategyUnder op)).map s.hurdleCheck) := ih _
        rw [hrule, unaryRule, operandStrategy_eq, ho]
        show _ = Check.andThen (s.purity id .unaryOp) (Check.andThen _ _)
        rw [hurdleCheck, rejectOperator, Check.ite_andThen]
        rfl
      next => exact (s.inOrder_leaf _ above).symm
  | call | dotted | first | literal | other => exact (s.inOrder_leaf _ above).symm

/-! ## Getting over a hurdle -/

/-- Nothing stands against the formula at the hurdle.  A leaf is judged in a pass of its own. -/
def Cleared (s : Scope) (marks : List NodeId) : Hurdle → Prop
  | .effects id _ => s.IsPure id
  | .operator _ _ _ c => s.facet.table.has c = true
  | .sides _ op left right =>
      ¬ (op.isComparison = true ∧ s.facts.isRowScoped left = true ∧
        s.facts.isRowScoped right = true)
  | .leaf e above => ∃ q, (s.validateNode e above).Accepts { marks := marks } q

/-- The formula fails at the hurdle, for this reason.  That of a leaf is the one it has in a
pass of its own. -/
def Blames (s : Scope) (marks : List NodeId) : Hurdle → Rejection → Prop
  | .effects id k, r => ¬ s.IsPure id ∧
      r = ⟨.impureNode, id, k, .suggestRemoteExecution s.function.name,
        Context.asyncOrImpure k (s.facts.isAsync id) false⟩
  | .operator id k text c, r => s.facet.table.has c = false ∧
      r = ⟨.other, id, k, .notSupportedByService text, Context.operatorUnsupported text⟩
  | .sides id op left right, r =>
      (op.isComparison = true ∧ s.facts.isRowScoped left = true ∧
        s.facts.isRowScoped right = true) ∧
      r = ⟨.other, id, .binaryOp, .suggestRemoteExecution s.function.name,
        Context.bothRowScoped op.text⟩
  | .leaf e above, r => ∃ q, (s.validateNode e above).Gives { marks := marks } (.rejected r) q

theorem Cleared.not_blames {s : Scope} {marks : List NodeId} {h : Hurdle} {r : Rejection}
    (hc : s.Cleared marks h) : ¬ s.Blames marks h r := by
  intro hb
  cases h with
  | effects id k => exact hb.1 hc
  | operator id k text c => exact absurd (hb.1.symm.trans hc) (by simp)
  | sides id op left right => exact hc hb.1
  | leaf e above =>
      obtain ⟨q, hq⟩ := hc
      obtain ⟨q', hq'⟩ := hb
      exact absurd (hq.det hq').1 (by simp)

/-- A leaf is one of the formula's nodes. -/
def HurdleOn (tree : Expr) : Hurdle → Prop
  | .leaf e _ => e ∈ tree.postorder
  | _ => True

theorem hurdles_on {s : Scope} {tree e : Expr} {above : Option Strategy} :
    e ∈ tree.postorder → ∀ h ∈ s.hurdles e above, HurdleOn tree h := by
  induction e using Expr.ind generalizing above with
  | binary id op left right ihl ihr =>
      intro he h hh
      rw [hurdles] at hh
      split at hh
      · simp only [List.mem_cons, List.mem_append] at hh
        rcases hh with rfl | rfl | rfl | hh | hh
        · trivial
        · trivial
        · trivial
        · exact ihl (Expr.mem_of_left he) h hh
        · exact ihr (Expr.mem_of_right he) h hh
      · exact List.mem_singleton.mp hh ▸ he
  | unary id op operand ih =>
      intro he h hh
      rw [hurdles] at hh
      split at hh
      · simp only [List.mem_cons] at hh
        rcases hh with rfl | rfl | hh
        · trivial
        · trivial
        · exact ih (Expr.mem_of_operand he) h hh
      · exact List.mem_singleton.mp hh ▸ he
  | call | dotted | first | literal | other =>
      intro he h hh
      exact List.mem_singleton.mp hh ▸ he

section

variable {s : Scope} {tree : Expr} {marks : List NodeId} {m : Pass}

theorem purity_of_not_pure {id : NodeId} {k : NodeKind} (h : ¬ s.IsPure id) :
    s.purity id k = s.rejectPlainly id k .impureNode
      (Context.asyncOrImpure k (s.facts.isAsync id) false) := by
  unfold IsPure at h
  rw [not_or, Bool.not_eq_true, Bool.not_eq_true] at h
  unfold purity
  rw [h.1, h.2]
  rfl

/-- From a pass that is alike a new one, a hurdle is met as in a new one. -/
theorem hurdle_ends (hd : tree.Distinct) {h : Hurdle} (hon : HurdleOn tree h)
    (hm : ({ marks := marks } : Pass).Alike tree.HasCall m) :
    (s.Cleared marks h ∧ ∃ q, (s.hurdleCheck h).Accepts m q ∧
        ({ marks := marks } : Pass).Alike tree.HasCall q) ∨
      ∃ r q, s.Blames marks h r ∧ (s.hurdleCheck h).Gives m (.rejected r) q := by
  cases h with
  | effects id k =>
      by_cases hp : s.IsPure id
      · exact Or.inl ⟨hp, m, purity_accepts.mpr ⟨hp, rfl⟩, hm⟩
      · rw [hurdleCheck, purity_of_not_pure hp]
        exact Or.inr ⟨_, m.noteRejection _, ⟨hp, rfl⟩, rfl⟩
  | operator id k text c =>
      simp only [hurdleCheck, Facet.allowsOnTable, CapabilitySet.hasAll_single]
      cases hc : s.facet.table.has c with
      | true => exact Or.inl ⟨hc, m, rfl, hm⟩
      | false => exact Or.inr ⟨_, m.noteRejection _, ⟨hc, rfl⟩, rfl⟩
  | sides id op left right =>
      rw [hurdleCheck]
      split
      next hb =>
        simp only [Bool.and_eq_true, and_assoc] at hb
        exact Or.inr ⟨_, m.noteRejection _, ⟨hb, rfl⟩, rfl⟩
      next hb =>
        simp only [Bool.and_eq_true, and_assoc] at hb
        exact Or.inl ⟨hb, m, rfl, hm⟩
  | leaf e above =>
      obtain ⟨v, q, hv, hstep⟩ := (settled_of_mem (s := s) hon).verdict above { marks := marks }
      have hres : (s.judge e).Respects tree.HasCall := judge_respects hon
      obtain ⟨q', hv', hq⟩ := hres.verdict above v _ m q hm hv
      cases v with
      | rejected r => exact Or.inr ⟨r, q', ⟨q, hv⟩, hv'⟩
      | delegable =>
          refine Or.inl ⟨⟨q, hv⟩, q', hv', ?_, ?_⟩
          · exact hq.findings.trans ((judge_silent s e).verdict above _ q hv)
          · exact (hstep.alikeOn fun id => hd.not_hasCall).symm.trans hq.marks

/-- Hurdles in order are all got over, or the reason is that of the first that is not. -/
theorem inOrder_ends (hd : tree.Distinct) {hs : List Hurdle} (hon : ∀ h ∈ hs, HurdleOn tree h)
    (hm : ({ marks := marks } : Pass).Alike tree.HasCall m) :
    ((∀ h ∈ hs, s.Cleared marks h) ∧
        ∃ q, (Check.inOrder (hs.map s.hurdleCheck)).Accepts m q) ∨
      ∃ r q, (Check.inOrder (hs.map s.hurdleCheck)).Gives m (.rejected r) q ∧
        ∃ before h after, hs = before ++ h :: after ∧ (∀ b ∈ before, s.Cleared marks b) ∧
          s.Blames marks h r := by
  induction hs generalizing m with
  | nil => exact Or.inl ⟨fun _ h => absurd h List.not_mem_nil, m, rfl⟩
  | cons h hs ih =>
      rcases hurdle_ends (s := s) hd (hon h List.mem_cons_self) hm with
        ⟨hc, q, hq, halike⟩ | ⟨r, q, hb, hq⟩
      · rcases ih (fun x hx => hon x (List.mem_cons_of_mem h hx)) halike with
          ⟨hall, q', hq'⟩ | ⟨r, q', hq', before, x, after, rfl, hbefore, hb⟩
        · exact Or.inl ⟨List.forall_mem_cons.mpr ⟨hc, hall⟩, q',
            Check.accepts_andThen.mpr ⟨q, hq, hq'⟩⟩
        · exact Or.inr ⟨r, q', Check.gives_bind.mpr ⟨.delegable, q, hq, hq'⟩, h :: before, x, after,
            rfl, List.forall_mem_cons.mpr ⟨hc, hbefore⟩, hb⟩
      · refine Or.inr ⟨r, q, ?_, [], h, hs, rfl, fun _ hx => absurd hx List.not_mem_nil, hb⟩
        exact Check.gives_bind.mpr ⟨.rejected r, q, hq, Check.gives_pure.mpr ⟨rfl, rfl⟩⟩

end

/-! ## The skeleton -/

/-- `s.Reaches e a x b`: from `e`, with `a` above it, one comes to `x` through operands of
operators that depend on the row, and `b` is above `x`. -/
inductive Reaches (s : Scope) : Expr → Option Strategy → Expr → Option Strategy → Prop where
  | here {e a} : Reaches s e a e a
  | left {id op left right a x b} : s.facts.isRowScoped id = true →
      Reaches s left (strategyAbove op true) x b → Reaches s (.binary id op left right) a x b
  | right {id op left right a x b} : s.facts.isRowScoped id = true →
      Reaches s right (strategyAbove op false) x b → Reaches s (.binary id op left right) a x b
  | operand {id op operand a x b} : s.facts.isRowScoped id = true →
      Reaches s operand (strategyUnder op) x b → Reaches s (.unary id op operand) a x b

/-- An operator that depends on the row. -/
def IsRowOperator (s : Scope) : Expr → Prop
  | .binary id .. | .unary id .. => s.facts.isRowScoped id = true
  | _ => False

/-- Nothing stands against the operator itself: it has no effects that matter, the source
knows it, and it does not compare the row with the row. -/
def OperatorStands (s : Scope) : Expr → Prop
  | .binary id op left right => s.IsPure id ∧ s.facet.table.has op.capability = true ∧
      ¬ (op.isComparison = true ∧ s.facts.isRowScoped left.id = true ∧
        s.facts.isRowScoped right.id = true)
  | .unary id op _ => s.IsPure id ∧ s.facet.table.has op.capability = true
  | _ => True

/-- An operator of the skeleton stands, or a leaf is accepted in a pass of its own. -/
def Holds (s : Scope) (marks : List NodeId) (x : Expr) (above : Option Strategy) : Prop :=
  (s.IsRowOperator x → s.OperatorStands x) ∧
    (¬ s.IsRowOperator x → ∃ q, (s.validateNode x above).Accepts { marks := marks } q)

section

variable {s : Scope} {marks : List NodeId} {e x : Expr} {a b : Option Strategy}

theorem hurdles_of_leaf (h : ¬ s.IsRowOperator e) : s.hurdles e a = [.leaf e a] := by
  cases e with
  | binary | unary => exact if_neg h
  | call | dotted | first | literal | other => rfl

theorem Reaches.of_leaf (h : ¬ s.IsRowOperator e) (hr : s.Reaches e a x b) : x = e ∧ b = a := by
  cases hr with
  | here => exact ⟨rfl, rfl⟩
  | left hrow | right hrow | operand hrow => exact absurd hrow h

/-- A leaf is the one hurdle below itself. -/
theorem cleared_leaf_iff (h : ¬ s.IsRowOperator e) :
    (∀ x ∈ s.hurdles e a, s.Cleared marks x) ↔ ∀ x b, s.Reaches e a x b → s.Holds marks x b := by
  rw [hurdles_of_leaf h]
  constructor
  · intro hall x b hr
    obtain ⟨rfl, rfl⟩ := hr.of_leaf h
    exact ⟨fun hop => absurd hop h, fun _ => hall _ List.mem_cons_self⟩
  · intro hall x hx
    obtain rfl := List.mem_singleton.mp hx
    exact (hall e a .here).2 h

/-- The hurdles are those of what the skeleton reaches. -/
theorem cleared_iff_holds :
    (∀ h ∈ s.hurdles e a, s.Cleared marks h) ↔ ∀ x b, s.Reaches e a x b → s.Holds marks x b := by
  induction e using Expr.ind generalizing a with
  | binary id op left right ihl ihr =>
      by_cases hrow : s.facts.isRowScoped id = true
      · rw [hurdles, if_pos hrow]
        simp only [List.forall_mem_cons, List.forall_mem_append, ihl, ihr]
        constructor
        · rintro ⟨hpure, htable, hsides, hl, hr⟩ x b hx
          cases hx with
          | here => exact ⟨fun _ => ⟨hpure, htable, hsides⟩, fun hno => absurd hrow hno⟩
          | left _ hx => exact hl x b hx
          | right _ hx => exact hr x b hx
        · intro hall
          obtain ⟨hpure, htable, hsides⟩ := (hall _ a .here).1 hrow
          exact ⟨hpure, htable, hsides, fun x b hx => hall x b (.left hrow hx),
            fun x b hx => hall x b (.right hrow hx)⟩
      · exact cleared_leaf_iff hrow
  | unary id op operand ih =>
      by_cases hrow : s.facts.isRowScoped id = true
      · rw [hurdles, if_pos hrow]
        simp only [List.forall_mem_cons, ih]
        constructor
        · rintro ⟨hpure, htable, ho⟩ x b hx
          cases hx with
          | here => exact ⟨fun _ => ⟨hpure, htable⟩, fun hno => absurd hrow hno⟩
          | operand _ hx => exact ho x b hx
        · intro hall
          obtain ⟨hpure, htable⟩ := (hall _ a .here).1 hrow
          exact ⟨hpure, htable, fun x b hx => hall x b (.operand hrow hx)⟩
      · exact cleared_leaf_iff hrow
  | call | dotted | first | literal | other => exact cleared_leaf_iff fun h => h

end

/-- **Exact blame**: on a new pass a formula whose nodes differ in identity is delegable iff
every operator of its skeleton stands and every leaf is accepted alone, under the operator
directly above it.  Otherwise the reason is that of the first hurdle it fails at, with the
hurdles in order: an operator's effects, whether the source knows it, its sides, then its
operands from the left. -/
theorem validateNode_blames_first (s : Scope) (root : Expr) (above : Option Strategy)
    (marks : List NodeId) (hd : root.Distinct) :
    ∃ v q, (s.validateNode root above).Gives { marks := marks } v q ∧
      (v = .delegable ↔
        (∀ x b, s.Reaches root above x b → s.IsRowOperator x → s.OperatorStands x) ∧
        (∀ x b, s.Reaches root above x b → ¬ s.IsRowOperator x →
          ∃ q, (s.validateNode x b).Accepts { marks := marks } q)) ∧
      ∀ r, v = .rejected r →
        ∃ before h after, s.hurdles root above = before ++ h :: after ∧
          (∀ x ∈ before, s.Cleared marks x) ∧ s.Blames marks h r := by
  have hholds : (∀ h ∈ s.hurdles root above, s.Cleared marks h) ↔
      (∀ x b, s.Reaches root above x b → s.IsRowOperator x → s.OperatorStands x) ∧
      (∀ x b, s.Reaches root above x b → ¬ s.IsRowOperator x →
        ∃ q, (s.validateNode x b).Accepts { marks := marks } q) := by
    rw [cleared_iff_holds]
    exact ⟨fun h => ⟨fun x b hx => (h x b hx).1, fun x b hx => (h x b hx).2⟩,
      fun h x b hx => ⟨h.1 x b hx, h.2 x b hx⟩⟩
  have hon : ∀ h ∈ s.hurdles root above, HurdleOn root h :=
    hurdles_on (Expr.self_mem_postorder root)
  have hstart : ({ marks := marks } : Pass).Alike root.HasCall { marks := marks } :=
    ⟨rfl, fun _ _ => Iff.rfl⟩
  rw [validateNode_eq_inOrder, ← hholds]
  rcases inOrder_ends (s := s) hd hon hstart with
    ⟨hall, q, hq⟩ | ⟨r, q, hq, before, h, after, hsplit, hbefore, hb⟩
  · exact ⟨.delegable, q, hq, ⟨fun _ => hall, fun _ => rfl⟩, fun r hr => Verdict.noConfusion hr⟩
  · refine ⟨.rejected r, q, hq, ⟨fun hv => Verdict.noConfusion hv, fun hall => ?_⟩, ?_⟩
    · have hmem : h ∈ s.hurdles root above := by
        rw [hsplit]
        exact List.mem_append_right before List.mem_cons_self
      exact absurd hb (hall h hmem).not_blames
    · rintro _ ⟨⟩
      exact ⟨before, h, after, hsplit, hbefore, hb⟩

end Scope

/-! ## A comparison across the row

`Name = … And City = Name`: the second comparison has the row on both sides.  The column left
of it does not allow comparisons either, but the operator comes first. -/

namespace Sample

def crossed : Expr :=
  .binary 6 .and (.binary 2 .equal (.first 0 name) (.literal 1 .null))
    (.binary 5 .equal (.first 3 city) (.first 4 name))

def crossing : Scope :=
  ⟨.filter, (facts.insert 4 (column name)).insert 5 { rowScoped := true }, facet⟩

def crossedReason : Rejection :=
  ⟨.other, 5, .binaryOp, .suggestRemoteExecution "Filter", Context.bothRowScoped "="⟩

theorem crossed_blames_comparison :
    crossed.Distinct ∧
      (∃ q, (crossing.validateNode crossed none).Gives {} (.rejected crossedReason) q) ∧
      ∃ before h after, crossing.hurdles crossed none = before ++ h :: after ∧
        (∀ x ∈ before, crossing.Cleared [] x) ∧ crossing.Blames [] h crossedReason := by
  have hd : crossed.Distinct := by decide
  have hrun : (crossing.validateNode crossed none).Gives {} (.rejected crossedReason)
      (({} : Pass).noteRejection crossedReason) := rfl
  obtain ⟨v, q, hv, -, hblame⟩ := crossing.validateNode_blames_first crossed none [] hd
  exact ⟨hd, ⟨_, hrun⟩, hblame crossedReason (hv.det hrun).1⟩

end Sample

end Delegability
