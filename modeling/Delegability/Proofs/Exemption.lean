/-
# `Delegability.Proofs.Exemption` — accesses that start at an exempt name

A name may be exempt and bound by the condition itself.  What is reached from it,

    F . s₁ . … . sₙ

has one value throughout the query, so such an access is delegable whatever the source says,
and its outermost node is marked as constant.  The walk down the left side is the only thing
that happens on the way (`validateNode_of_exempt`): the inner accesses are not judged.

Marks are all that a validation ever writes, and this is the only place where one is written.
So the converse is a frame (`Session.Frame`), over every formula and every rule, calls and
their hooks included: what has been marked stays marked, a new mark is one of `Scope.MayMark`,
and the record of a node, as a session sees it, changes in nothing but its mark.
-/
import Delegability.Proofs.WholeRow

namespace Delegability

/-! ## Exempt accesses -/

namespace Scope

variable {s : Scope} {id start : NodeId} {first right : Name} {left : Expr}
  {op : Option Strategy}

theorem exemptSpine_accesses (hexempt : s.facts.isExempted start = true)
    (hlambda : s.facts.isLambdaScoped start = true) (steps : List (NodeId × Name)) :
    s.ExemptSpine ((Expr.first start first).accesses steps) :=
  ⟨start, first, Expr.spineBottom_accesses _ steps, hexempt, hlambda⟩

/-- In whatever pass, an exempt access is accepted and marked. -/
theorem validateNode_of_exempt (hrow : s.facts.isRowScoped id = true) (hpure : s.IsPure id)
    (hex : s.ExemptSpine left) (p : Pass) :
    (s.validateNode (.dotted id left right) op).Accepts p (p.mark id) := by
  refine dottedRule_accepts.mpr ⟨fun _ => accessRule_accepts.mpr ⟨hpure, Or.inl ?_⟩, ?_⟩
  · exact ⟨p, shape_gives_exempted.mpr ⟨hex, rfl⟩, rfl⟩
  · intro hout
    rw [hrow] at hout
    cases hout

end Scope

/-! ## Frames -/

namespace Session

/-- The record of a node as a session sees it: a marked node is constant. -/
def record? (session : Session) (t : FactTable) (id : NodeId) : Option NodeFacts :=
  (t.facts? id).map fun f =>
    { f with blockScopedConstant := f.blockScopedConstant || session.marks.contains id }

theorem record?_of_mem {session : Session} {id : NodeId} (h : id ∈ session.marks) (t : FactTable) :
    session.record? t id =
      (t.facts? id).map fun f => { f with blockScopedConstant := true } := by
  have hmark : session.marks.contains id = true := by simpa using h
  simp only [record?, hmark, Bool.or_true]

theorem record?_congr {a b : Session} {id : NodeId} (h : id ∈ a.marks ↔ id ∈ b.marks)
    (t : FactTable) : a.record? t id = b.record? t id := by
  have hmark : a.marks.contains id = b.marks.contains id := by
    rw [Bool.eq_iff_iff]
    simpa using h
  simp only [record?, hmark]

/-- What the validation of a formula leaves as it was, and what it may mark. -/
structure Frame (s : Scope) (root : Expr) (before after : Session) : Prop where
  kept : ∀ id ∈ before.marks, id ∈ after.marks
  marked : ∀ id ∈ after.marks, id ∈ before.marks ∨ s.MayMark root id
  record : ∀ id, after.record? s.facts id = before.record? s.facts id ∨
    s.MayMark root id ∧ after.record? s.facts id =
      (before.record? s.facts id).map fun f => { f with blockScopedConstant := true }

theorem Frame.of_marks {s : Scope} {root : Expr} {before after : Session}
    (kept : ∀ id ∈ before.marks, id ∈ after.marks)
    (marked : ∀ id ∈ after.marks, id ∈ before.marks ∨ s.MayMark root id) :
    Frame s root before after := by
  refine ⟨kept, marked, fun id => ?_⟩
  by_cases hafter : id ∈ after.marks
  · rcases marked id hafter with hbefore | hmay
    · exact Or.inl (record?_congr ⟨fun _ => hbefore, fun _ => hafter⟩ s.facts)
    · refine Or.inr ⟨hmay, ?_⟩
      rw [record?_of_mem hafter, record?, Option.map_map]
      rfl
  · have hbefore : id ∉ before.marks := fun h => hafter (kept id h)
    exact Or.inl (record?_congr ⟨fun h => absurd h hafter, fun h => absurd h hbefore⟩ s.facts)

theorem validate_frame {s : Scope} (hn : s.function.name ≠ "") (session : Session) (t : Tracker)
    (root : Expr) (op : Option Strategy) :
    ∃ report after, session.validate t s root op = .ok (report, after) ∧
      Frame s root session after := by
  have hset : (s.judge root).Settled (fun _ _ => True) (s.MayMark root) :=
    Scope.judge_settled (fun _ _ => trivial) (fun _ h => h) (Expr.self_mem_postorder root)
  obtain ⟨v, q, hv, hstep⟩ := hset.verdict op session.newPass
  exact ⟨_, _, validate_eq hn hv, .of_marks hstep.kept hstep.marked⟩

/-- **Exempt accesses.**  An access of any depth that starts at an exempt name bound by the
condition is delegable, nothing is told of it, and it marks itself and nothing else.  No
validation, of whatever formula, marks anything but such accesses of the formula that depend on
the row, takes a mark back, or changes a record in another way. -/
theorem marks_exempt_accesses_only {s : Scope} (hn : s.function.name ≠ "") (session : Session)
    (t : Tracker) (op : Option Strategy) :
    (∀ (start id : NodeId) (first right : Name) (steps : List (NodeId × Name)),
      s.facts.isRowScoped id = true → s.IsPure id →
      s.facts.isExempted start = true → s.facts.isLambdaScoped start = true →
      ∃ after, session.DelegatesQuietly t s
          (.dotted id ((Expr.first start first).accesses steps) right) op after ∧
        ∀ x, x ∈ after.marks ↔ x ∈ session.marks ∨ x = id) ∧
    ∀ root, ∃ report after, session.validate t s root op = .ok (report, after) ∧
      Frame s root session after := by
  refine ⟨?_, fun root => validate_frame hn session t root op⟩
  intro start id first right steps hrow hpure hexempt hlambda
  have hex : s.ExemptSpine ((Expr.first start first).accesses steps) :=
    Scope.exemptSpine_accesses hexempt hlambda steps
  have hacc : (s.validateNode (.dotted id ((Expr.first start first).accesses steps) right)
      op).Accepts session.newPass (session.newPass.mark id) :=
    Scope.validateNode_of_exempt hrow hpure hex session.newPass
  obtain ⟨after, hquiet, hmarks⟩ := delegatesQuietly_of_accepts (t := t) hn hacc
  refine ⟨after, hquiet, fun x => ?_⟩
  rw [hmarks]
  exact Pass.mem_marks_mark

end Session

/-! ## An access of two steps

`Outer.Address.City` for a sort, under an operator, in a source that describes nothing.  Of the
inner access nothing is known.  The formula of `Sample.marking` has such an access among other
operands. -/

namespace Sample

def outer : Name := ⟨"Outer", by decide⟩

def exemptFacts : FactTable where
  facts := .ofList
    [(0, { exempted := true, lambdaScoped := true }), (2, { rowScoped := true, isAsync := true })]

def exempting : Scope := ⟨.sort, exemptFacts, {}⟩

theorem exempt_access_marked :
    exempting.facts.facts? 1 = none ∧
      (∃ after, ({ marks := [7] } : Session).DelegatesQuietly silent exempting
          (.dotted 2 (.dotted 1 (.first 0 outer) address) city) (some (.unary .negate)) after ∧
        ∀ x, x ∈ after.marks ↔ x ∈ [7] ∨ x = 2) ∧
      ∃ report after, ({} : Session).validate silent ⟨.filter, markingFacts, facet⟩ marking none =
          .ok (report, after) ∧
        Session.Frame ⟨.filter, markingFacts, facet⟩ marking {} after := by
  have hsort : exempting.function.name ≠ "" := by decide
  have hfilter : (⟨.filter, markingFacts, facet⟩ : Scope).function.name ≠ "" := by decide
  obtain ⟨hchain, -⟩ := Session.marks_exempt_accesses_only hsort { marks := [7] } silent
    (some (.unary .negate))
  obtain ⟨-, hframe⟩ := Session.marks_exempt_accesses_only hfilter {} silent none
  exact ⟨rfl, hchain 0 2 outer city [(1, address)] rfl (Or.inl rfl) rfl rfl, hframe marking⟩

end Sample

end Delegability
