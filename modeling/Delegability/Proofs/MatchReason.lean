/-
# `Delegability.Proofs.MatchReason` — why a match is rejected

A match of a column with a pattern fails if one of its two arguments does.  The rule of the
match does not see the verdict on that argument, only that there was none in its favour; it
takes for the reason whatever the pass has noted meanwhile.  A pass notes a node once.  Hence

    the argument's node is new to the pass   ⟹  its rejection is the reason, and the match
                                                 itself is not rejected
    it has been rejected in the pass before  ⟹  nothing is noted meanwhile, and the match is
                                                 rejected as a function the source lacks

A validation starts a pass of its own and stops at the first rejection, so it never comes to
the second line; a pass in which several rules are asked does (`Sample.asked_twice`).
-/
import Delegability.Proofs.History

namespace Delegability

namespace Scope

variable {s : Scope} {id : NodeId} {f : DelegableFunction} {c : Capability} {column pattern e : Expr}
  {op : Option Strategy} {p q : Pass} {r : Rejection} {v : Verdict}

/-- From `p` to `q`, an argument of the match is rejected for the reason `r`: the column under
the match, or the pattern after it.  A pattern that depends on the row is not looked at. -/
inductive ArgumentFails (s : Scope) (c : Capability) (column pattern : Expr) (p : Pass)
    (r : Rejection) (q : Pass) : Prop where
  | column : (s.validateNode column (some (.stringMatch (.single c)))).Gives p (.rejected r) q →
      ArgumentFails s c column pattern p r q
  | pattern {m : Pass} : (s.validateNode column (some (.stringMatch (.single c)))).Accepts p m →
      s.facts.isRowScoped pattern.id = false →
      (s.validateNode pattern none).Gives m (.rejected r) q →
      ArgumentFails s c column pattern p r q

/-- The rejection of the match itself. -/
def unmatched (s : Scope) (id : NodeId) (f : DelegableFunction) : Rejection :=
  ⟨.undelegatableFunction, id, .call, .suggestRemoteExecution s.function.name,
    Context.function (some f.name)⟩

/-! ## What the arguments leave behind -/

/-- A verdict adds itself to the rejections, and nothing else. -/
theorem rejections_of_gives (h : (s.validateNode e op).Gives p v q) :
    q.rejections = v.addTo p.rejections := by
  obtain ⟨v', q', hv', hstep⟩ := (settled_of_mem (s := s) (Expr.self_mem_postorder e)).verdict op p
  obtain ⟨rfl, rfl⟩ := Check.Gives.det h hv'
  exact hstep.rejections

theorem ArgumentFails.rejections (h : s.ArgumentFails c column pattern p r q) :
    q.rejections = (Verdict.rejected r).addTo p.rejections := by
  cases h with
  | column hcol => exact rejections_of_gives hcol
  | @pattern m hcol _ hpat =>
      have hm : m.rejections = p.rejections := rejections_of_gives hcol
      rw [rejections_of_gives hpat, hm]

theorem ArgumentFails.rejections_of_new (h : s.ArgumentFails c column pattern p r q)
    (hnew : p.hasRejected r.node = false) : q.rejections = p.rejections ++ [r] := by
  unfold Pass.hasRejected at hnew
  rw [h.rejections, Verdict.addTo, hnew]
  rfl

theorem ArgumentFails.rejections_of_old (h : s.ArgumentFails c column pattern p r q)
    (hold : p.hasRejected r.node = true) : q.rejections = p.rejections := by
  unfold Pass.hasRejected at hold
  rw [h.rejections, Verdict.addTo, hold]
  rfl

/-- The source is not asked to evaluate a match of which an argument fails. -/
theorem ArgumentFails.serverSide (h : s.ArgumentFails c column pattern p r q)
    (hc : matchCapability? f = some c) (ht : s.facet.table.has c = true) :
    (s.serverSide f (s.judgeArgs [column, pattern])).Gives p false q := by
  have htable : s.facet.allowsOnTable (.single c) = true := by
    rw [Facet.allowsOnTable, CapabilitySet.hasAll_single, ht]
  unfold Scope.serverSide
  rw [hc]
  show (if !s.facet.allowsOnTable (.single c) then pure false else _ : Check Bool).Gives p false q
  rw [htable]
  cases h with
  | column hcol =>
      exact Check.gives_bind.mpr ⟨.rejected r, q, hcol, Check.gives_pure.mpr ⟨rfl, rfl⟩⟩
  | @pattern m hcol hrow hpat =>
      refine Check.gives_bind.mpr ⟨.delegable, m, hcol, ?_⟩
      show (if s.facts.isRowScoped (s.judge pattern).id then pure false else _ : Check Bool).Gives
        m false q
      rw [judge_id, hrow]
      exact Check.gives_bind.mpr ⟨.rejected r, q, hpat, Check.gives_pure.mpr ⟨rfl, rfl⟩⟩

/-! ## The rule of the match -/

/-- A match that is ready and constant is judged by what the source can evaluate. -/
theorem callRule_gives_of_match {args : List Reading} (hready : s.IsReady id .call)
    (hrow : s.facts.isRowScoped id = true) (hconst : s.isConstant p id = true)
    (hf : s.facts.callee? id = some f) (hc : matchCapability? f = some c)
    (h : (s.rowCallRule id args).Gives p v q) : (s.callRule id args).Gives p v q := by
  rw [callRule_of_match hf hc]
  refine Check.gives_bind.mpr ⟨.delegable, p, readiness_accepts.mpr ⟨hready, rfl⟩, ?_⟩
  show (if !s.facts.isRowScoped id then _ else _ : Check Verdict).Gives p v q
  rw [hrow]
  refine Check.gives_bind.mpr ⟨p, p, Check.gives_get.mpr ⟨rfl, rfl⟩, ?_⟩
  rw [hconst]
  exact h

/-- **Which reason a match is given.**  In a pass in any state, let a match be ready and
constant, of two arguments and known to the source, and let one of the arguments fail.  Then the
match is rejected.  If the node that the argument was rejected for is new to the pass, that
rejection is the reason and the only one noted.  If not, the match is rejected for itself. -/
theorem callRule_hands_on_or_blames (hready : s.IsReady id .call)
    (hrow : s.facts.isRowScoped id = true) (hconst : s.isConstant p id = true)
    (hf : s.facts.callee? id = some f) (hc : matchCapability? f = some c)
    (ht : s.facet.table.has c = true) (hfail : s.ArgumentFails c column pattern p r q) :
    (p.hasRejected r.node = false →
      (s.callRule id (s.judgeArgs [column, pattern])).Gives p (.rejected r) q ∧
        q.rejections = p.rejections ++ [r]) ∧
    (p.hasRejected r.node = true →
      (s.callRule id (s.judgeArgs [column, pattern])).Gives p (.rejected (s.unmatched id f))
          (q.noteRejection (s.unmatched id f)) ∧
        q.rejections = p.rejections) := by
  have hno : (s.serverSide f (s.judgeArgs [column, pattern])).Gives p false q :=
    hfail.serverSide hc ht
  constructor
  · intro hnew
    have hadded := hfail.rejections_of_new hnew
    refine ⟨callRule_gives_of_match hready hrow hconst hf hc ?_, hadded⟩
    refine (rowCallRule_gives hf).mpr (Or.inr ⟨q, hno, Or.inl ⟨r, ?_, rfl, rfl⟩⟩)
    rw [hadded, List.getElem?_append_right (Nat.le_refl _), Nat.sub_self]
    rfl
  · intro hold
    have hkept := hfail.rejections_of_old hold
    refine ⟨callRule_gives_of_match hready hrow hconst hf hc ?_, hkept⟩
    refine (rowCallRule_gives hf).mpr (Or.inr ⟨q, hno, Or.inr ⟨?_, rfl⟩⟩)
    rw [hkept]
    exact List.getElem?_eq_none (Nat.le_refl _)

end Scope

/-! ## A column asked about twice

`StartsWith(Name, "a")`, where `Name` may be compared and not matched.  Asked for the match
alone, a pass rejects the column.  If the column was asked about before, it rejects the match. -/

namespace Sample

def matchName : Option Strategy := some (.stringMatch (.single .startsWith))

def nameReason : Rejection :=
  ⟨.noSupportByColumn, 0, .firstName, .notSupportedByColumn "Name",
    Context.columnOperator "Name" "StartsWith"⟩

def startsWithName : List Expr := [.first 0 name, .literal 4 (.str "a")]

theorem name_fails (p : Pass) :
    scope.ArgumentFails .startsWith (.first 0 name) (.literal 4 (.str "a")) p nameReason
      (p.noteRejection nameReason) :=
  .column rfl

theorem name_handed_on_or_match_blamed :
    (scope.callRule 5 (scope.judgeArgs startsWithName)).Gives {} (.rejected nameReason)
        { findings := [.rejection nameReason] } ∧
      (scope.callRule 5 (scope.judgeArgs startsWithName)).Gives
        { findings := [.rejection nameReason] } (.rejected (scope.unmatched 5 .startsWith))
        { findings := [.rejection nameReason, .rejection (scope.unmatched 5 .startsWith)] } := by
  have hready : scope.IsReady 5 .call := ⟨Or.inl rfl, Or.inl rfl⟩
  have hnew := (Scope.callRule_hands_on_or_blames hready rfl rfl rfl rfl rfl (name_fails {})).1
  have hold := (Scope.callRule_hands_on_or_blames hready rfl rfl rfl rfl rfl
    (name_fails { findings := [.rejection nameReason] })).2
  exact ⟨(hnew rfl).1, (hold rfl).1⟩

theorem asked_twice :
    scope.IsReady 5 .call ∧ scope.facts.isRowScoped 5 = true ∧
      scope.facts.isBlockScopedConstant 5 = true ∧ scope.facts.callee? 5 = some .startsWith ∧
      scope.facet.table.has .startsWith = true ∧
      RuleCall.runAll scope [.node (.first 0 name) matchName, .call 5 startsWithName] {} =
        ([.ok (.verdict (.rejected nameReason)),
          .ok (.verdict (.rejected (scope.unmatched 5 .startsWith)))],
         { findings := [.rejection nameReason, .rejection (scope.unmatched 5 .startsWith)] }) ∧
      (scope.validateNode (.first 0 name) matchName).Gives { findings := [.rejection nameReason] }
        (.rejected nameReason) { findings := [.rejection nameReason] } ∧
      nameReason ≠ scope.unmatched 5 .startsWith :=
  ⟨⟨Or.inl rfl, Or.inl rfl⟩, rfl, rfl, rfl, rfl, rfl, rfl, by decide⟩

end Sample

end Delegability
