/-
# `Delegability.Proofs.OuterRecord` — accesses into a row of an outer evaluation

A name may stand for a whole row that an outer evaluation supplies.  Its fields are then values
that are known when the query is sent.  Whether an access to such a row is taken for one depends
on its depth, since only the name directly left of the last dot is looked at:

    R . s₁                    delegable, whatever the source says
    R . s₁ . … . sₙ   (1 < n)   the source is asked for `s₁.….sₙ`, as for a row of its own

In the second case the source has an answer only by coincidence: the row is not one of its rows.
`Session.outerAccess_delegates_iff` says exactly when the access is delegable, and what is said
where it is not; `Sample.deep_outer_access_rejected` is the case of two steps.
-/
import Delegability.Proofs.Exemption

namespace Delegability

theorem Expr.accesses_concat (base : Expr) (steps : List (NodeId × Name)) (step : NodeId × Name) :
    base.accesses (steps ++ [step]) = .dotted step.1 (base.accesses steps) step.2 :=
  List.foldl_append

namespace Scope

/-- An access that depends on the row and has no effects that matter, from a name for a row of
an outer evaluation on; no access on the way leads into an entity. -/
structure IsOuterAccess (s : Scope) (start : NodeId) (steps : List (NodeId × Name)) (id : NodeId) :
    Prop where
  row : s.facts.isRowScoped id = true
  pure : s.IsPure id
  outer : s.facts.name? start = some (.scopeRecord none)
  direct : ∀ step ∈ steps, (s.facts.type? step.1).bind ValueType.expansion? = none

variable {s : Scope} {start id : NodeId} {whole right : Name} {steps : List (NodeId × Name)}
  {op : Option Strategy}

/-- A field of the row itself is not asked of the source. -/
theorem IsOuterAccess.validateNode_field (h : s.IsOuterAccess start [] id)
    (hplain : ¬ (s.facts.isExempted start = true ∧ s.facts.isLambdaScoped start = true)) :
    s.validateNode (.dotted id (.first start whole) right) op = Check.accept := by
  have houter : s.isOuterRecord (.first start whole) = true := by
    simp [isOuterRecord, h.outer]
  rw [validateNode_resolvable h.row rfl hplain, purity_of_pure h.pure, resolvedAccess, houter]
  rfl

/-- Anything deeper is, under the path that starts at the row. -/
theorem IsOuterAccess.validateNode_deep (h : s.IsOuterAccess start steps id) (hdeep : steps ≠ [])
    (hplain : ¬ (s.facts.isExempted start = true ∧ s.facts.isLambdaScoped start = true)) :
    s.validateNode (.dotted id ((Expr.first start whole).accesses steps) right) op =
      s.supportRule id .dottedName s.facet ⟨steps.map Prod.snd ++ [right]⟩
        s.function.requires op := by
  obtain ⟨init, last, rfl⟩ := (List.eq_nil_or_concat' steps).resolve_left hdeep
  have hleft := (Expr.first start whole).accesses_concat init last
  have hinner : s.isOuterRecord ((Expr.first start whole).accesses (init ++ [last])) = false := by
    rw [hleft]
    rfl
  have hdirect : (s.facts.type? ((Expr.first start whole).accesses (init ++ [last])).id).bind
      ValueType.expansion? = none := by
    rw [hleft]
    exact h.direct last (List.mem_append_right init List.mem_cons_self)
  rw [validateNode_resolvable h.row (Expr.spineBottom_accesses _ _) hplain, purity_of_pure h.pure,
    resolvedAccess_of_row h.outer hinner hdirect]
  rfl

/-- The access is known, or the source supports a column of the same path. -/
def OuterAccessStands (s : Scope) (start : NodeId) (steps : List (NodeId × Name)) (right : Name)
    (op : Option Strategy) : Prop :=
  steps = [] ∨ (s.facts.isExempted start = true ∧ s.facts.isLambdaScoped start = true) ∨
    s.facet.Supports ⟨steps.map Prod.snd ++ [right]⟩ s.function.requires
      (op.map Strategy.requires)

theorem IsOuterAccess.accepted (h : s.IsOuterAccess start steps id)
    (hstands : s.OuterAccessStands start steps right op) (p : Pass) :
    ∃ q, (s.validateNode (.dotted id ((Expr.first start whole).accesses steps) right) op).Accepts
      p q := by
  -- exemption is looked at first, so it has to be told apart first
  by_cases hex : s.facts.isExempted start = true ∧ s.facts.isLambdaScoped start = true
  · exact ⟨_, validateNode_of_exempt h.row h.pure (exemptSpine_accesses hex.1 hex.2 steps) p⟩
  · by_cases hdeep : steps = []
    · subst hdeep
      refine ⟨p, ?_⟩
      show (s.validateNode (.dotted id (.first start whole) right) op).Accepts p p
      rw [h.validateNode_field hex]
      rfl
    · have hsupports := (hstands.resolve_left hdeep).resolve_left hex
      refine ⟨p, ?_⟩
      rw [h.validateNode_deep hdeep hex]
      exact supportRule_accepts.mpr ⟨hsupports, rfl⟩

theorem IsOuterAccess.rejected (h : s.IsOuterAccess start steps id)
    (hno : ¬ s.OuterAccessStands start steps right op) :
    ∃ r, s.validateNode (.dotted id ((Expr.first start whole).accesses steps) right) op =
        Check.reject r ∧
      r.OfColumn id .dottedName (ColumnPath.dotted ⟨steps.map Prod.snd ++ [right]⟩) op := by
  unfold OuterAccessStands at hno
  rw [not_or, not_or] at hno
  obtain ⟨hdeep, hex, hsupports⟩ := hno
  rw [h.validateNode_deep hdeep hex]
  exact supportRule_rejects hsupports

end Scope

/-- **A row of an outer evaluation.**  A field of it is delegable.  An access of more steps is
delegable iff it starts at a name that is exempt and bound by the condition, or the source
supports the column of the same path; otherwise that column is the reason, at the access.  What
is delegable is so quietly. -/
theorem Session.outerAccess_delegates_iff {s : Scope} {start id : NodeId}
    {steps : List (NodeId × Name)} (hn : s.function.name ≠ "") (h : s.IsOuterAccess start steps id)
    (whole right : Name) (op : Option Strategy) (session : Session) (t : Tracker) :
    ((∃ after, session.DelegatesQuietly t s
        (.dotted id ((Expr.first start whole).accesses steps) right) op after) ↔
      steps = [] ∨ (s.facts.isExempted start = true ∧ s.facts.isLambdaScoped start = true) ∨
        s.facet.Supports ⟨steps.map Prod.snd ++ [right]⟩ s.function.requires
          (op.map Strategy.requires)) ∧
    (¬ session.Delegates t s (.dotted id ((Expr.first start whole).accesses steps) right) op →
      ∃ report after r, session.validate t s
          (.dotted id ((Expr.first start whole).accesses steps) right) op = .ok (report, after) ∧
        report.rejections = [r] ∧
        r.OfColumn id .dottedName (ColumnPath.dotted ⟨steps.map Prod.snd ++ [right]⟩) op) := by
  by_cases hstands : s.OuterAccessStands start steps right op
  · obtain ⟨q, hq⟩ := h.accepted hstands session.newPass
    obtain ⟨after, hquiet, -⟩ := Session.delegatesQuietly_of_accepts hn hq
    refine ⟨⟨fun _ => hstands, fun _ => ⟨after, hquiet⟩⟩, fun hno => ?_⟩
    exact absurd (Session.delegates_iff.mpr ⟨hn, q, hq⟩) hno
  · obtain ⟨r, hreject, hcolumn⟩ := h.rejected hstands
    obtain ⟨after, hrun⟩ := Session.validate_of_reject hn hreject
    refine ⟨⟨?_, fun hs => absurd hs hstands⟩, fun _ => ⟨_, after, r, hrun, rfl, hcolumn⟩⟩
    rintro ⟨after', report, hrun', hd, -⟩
    cases hrun.symm.trans hrun'
    cases hd

/-! ## A row from outside

`Outer.City` and `Outer.Address.City` in a source without columns. -/

namespace Sample

def outerFacts : FactTable where
  facts := .ofList
    [(0, { rowScoped := true, name? := some (.scopeRecord none) }), (1, { rowScoped := true }),
     (2, { rowScoped := true })]

def outside : Scope := ⟨.filter, outerFacts, {}⟩

theorem outer_field_delegates :
    (outside.IsOuterAccess 0 [] 1 ∧
      ∃ after, ({} : Session).DelegatesQuietly silent outside
        (.dotted 1 (.first 0 outer) city) none after) ∧
    outside.IsOuterAccess 0 [(1, address)] 2 ∧
      ¬ ∃ after, ({} : Session).DelegatesQuietly silent outside
        (.dotted 2 (.dotted 1 (.first 0 outer) address) city) none after := by
  have hn : outside.function.name ≠ "" := by decide
  have hfield : outside.IsOuterAccess 0 [] 1 := ⟨rfl, Or.inl rfl, rfl, by simp⟩
  have hdeep : outside.IsOuterAccess 0 [(1, address)] 2 := ⟨rfl, Or.inl rfl, rfl, by decide⟩
  refine ⟨⟨hfield, ?_⟩, hdeep, ?_⟩
  · exact (Session.outerAccess_delegates_iff hn hfield outer city none {} silent).1.mpr (Or.inl rfl)
  · intro h
    rcases (Session.outerAccess_delegates_iff hn hdeep outer city none {} silent).1.mp h with
      hnil | ⟨hexempt, -⟩ | hsupports
    · cases hnil
    · cases hexempt
    · -- the source has no columns
      obtain ⟨c, hc, -⟩ := hsupports
      cases hc

theorem deep_outer_access_rejected :
    outside.function.name ≠ "" ∧ outside.IsOuterAccess 0 [(1, address)] 2 ∧
      ¬ ({} : Session).Delegates silent outside
        (.dotted 2 (.dotted 1 (.first 0 outer) address) city) none := by
  refine ⟨by decide, ⟨rfl, Or.inl rfl, rfl, by decide⟩, ?_⟩
  rintro ⟨report, after, h, hd⟩
  have hrun : (({} : Session).validate silent outside
      (.dotted 2 (.dotted 1 (.first 0 outer) address) city) none).map (·.1.delegable) =
      .ok false := rfl
  rw [h] at hrun
  exact absurd (hd.symm.trans (Except.ok.inj hrun)) (by decide)

end Sample

end Delegability
