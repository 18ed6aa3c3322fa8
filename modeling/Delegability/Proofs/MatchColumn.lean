/-
# `Delegability.Proofs.MatchColumn` — what a match is a match of

A match that depends on the row is meant for a column and a text that is known.  The rule of the
match sees to the number of its arguments and to the second of them.  The first it leaves to the
rules of formulas, under an operator of its own; and these look at the operator above only where a
formula is a reference:

    name, access                              is asked whether it supports the match
    literal, call, operator, anything else    is judged as if it stood alone

So a match of a literal, or of a call that is delegable, goes to the source like one of a column.
`Session.match_delegates_iff` says exactly which matches do; `Sample.literal_match_delegates` is
one of a literal.
-/
import Delegability.Proofs.MatchReason

namespace Delegability

/-- The formula is a name, or an access. -/
def Expr.IsReference : Expr → Prop
  | .first .. | .dotted .. => True
  | .literal .. | .call .. | .binary .. | .unary .. | .other .. => False

namespace Scope

variable {s : Scope} {id : NodeId} {args : List Expr} {f : DelegableFunction} {c : Capability}
  {p q : Pass}

/-- Only references are judged by the operator above them. -/
theorem validateNode_of_not_reference {e : Expr} (h : ¬ e.IsReference) (op : Option Strategy) :
    s.validateNode e op = s.validateNode e none := by
  cases e with
  | first id name => exact absurd trivial h
  | dotted id left right => exact absurd trivial h
  | literal | call | binary | unary | other => rfl

/-- A match is accepted iff it is ready and constant, the source knows it, and it has two
arguments: one that is accepted under the match, and one outside the row. -/
theorem match_accepts_iff (hrow : s.facts.isRowScoped id = true)
    (hf : s.facts.callee? id = some f) (hc : matchCapability? f = some c) :
    (s.callRule id (s.judgeArgs args)).Accepts p q ↔
      s.IsReady id .call ∧ s.isConstant p id = true ∧ s.facet.table.has c = true ∧
        ∃ column pattern m, args = [column, pattern] ∧ s.facts.isRowScoped pattern.id = false ∧
          (s.validateNode column (some (.stringMatch (.single c)))).Accepts p m ∧
          (s.validateNode pattern none).Accepts m q := by
  constructor
  · intro h
    obtain ⟨column, pattern, m, hargs, hhas, hcolumn, hout, hpattern⟩ := match_accepted hrow hf hc h
    rw [callRule_of_match hf hc] at h
    obtain ⟨hready, -, hrest⟩ := genericCall_accepts.mp h
    have hconst := (hrest hrow).1.resolve_left Bool.false_ne_true
    exact ⟨hready, hconst, hhas, column, pattern, m, hargs, hout, hcolumn, hpattern⟩
  · rintro ⟨hready, hconst, hhas, column, pattern, m, rfl, hout, hcolumn, hpattern⟩
    refine callRule_gives_of_match hready hrow hconst hf hc ?_
    refine rowCallRule_accepts.mpr ⟨f, hf, serverSide_gives_true.mpr ?_⟩
    exact ⟨c, s.judge column, s.judge pattern, m, hc, rfl, hhas, hcolumn,
      (judge_id s pattern).symm ▸ hout, hpattern⟩

end Scope

namespace Session

variable {session between : Session} {t : Tracker} {s : Scope} {e e' : Expr}
  {op op' : Option Strategy} {q : Pass}

/-- What is accepted leaves behind the pass that the next validation starts with. -/
theorem exists_newPass_of_accepts (hn : s.function.name ≠ "")
    (h : (s.validateNode e op).Accepts session.newPass q) (t : Tracker) :
    ∃ after, session.DelegatesQuietly t s e op after ∧ after.newPass = q := by
  obtain ⟨after, hquiet, hmarks⟩ := delegatesQuietly_of_accepts (t := t) hn h
  have hfound : q.findings = [] := (s.judge_silent e).verdict op session.newPass q h
  refine ⟨after, hquiet, ?_⟩
  unfold newPass
  rw [hmarks, ← hfound]

theorem DelegatesQuietly.accepts (h : session.DelegatesQuietly t s e op between) :
    (s.validateNode e op).Accepts session.newPass between.newPass := by
  obtain ⟨report, hrun, hd, -⟩ := h
  obtain ⟨hn, q, hacc⟩ := delegates_iff.mp ⟨report, between, hrun, hd⟩
  obtain ⟨after, ⟨_, hrun', -⟩, rfl⟩ := exists_newPass_of_accepts hn hacc t
  cases hrun.symm.trans hrun'
  exact hacc

/-- Two formulas are accepted in one pass iff two validations, one after the other, find them
delegable. -/
theorem accepts_in_turn_iff (hn : s.function.name ≠ "") (t : Tracker) :
    (∃ m q, (s.validateNode e op).Accepts session.newPass m ∧
        (s.validateNode e' op').Accepts m q) ↔
      ∃ between, session.DelegatesQuietly t s e op between ∧ between.Delegates t s e' op' := by
  constructor
  · rintro ⟨m, q, hfirst, hnext⟩
    obtain ⟨between, hquiet, rfl⟩ := exists_newPass_of_accepts hn hfirst t
    exact ⟨between, hquiet, delegates_iff.mpr ⟨hn, q, hnext⟩⟩
  · rintro ⟨between, hquiet, hnext⟩
    obtain ⟨-, q, hacc⟩ := delegates_iff.mp hnext
    exact ⟨between.newPass, q, hquiet.accepts, hacc⟩

/-- **Matches.**  A match that depends on the row is delegable iff nothing stands against the call
itself, it is constant, the source knows the match, and there are exactly two arguments: the first
is delegable under the match, and the second does not depend on the row and is delegable after
that.  What is delegable under the match is something that the source promises to match, if it is
a reference; if it is none, it is delegable under the match iff it is delegable by itself. -/
theorem match_delegates_iff {s : Scope} {id : NodeId} {f : DelegableFunction} {c : Capability}
    (hn : s.function.name ≠ "") (hrow : s.facts.isRowScoped id = true)
    (hf : s.facts.callee? id = some f) (hc : Scope.matchCapability? f = some c) (head : Name)
    (args : List Expr) (op : Option Strategy) (session : Session) (t : Tracker) :
    (session.Delegates t s (.call id head args) op ↔
      s.IsReady id .call ∧ (s.facts.isBlockScopedConstant id = true ∨ id ∈ session.marks) ∧
        s.facet.table.has c = true ∧
        ∃ column pattern, args = [column, pattern] ∧ s.facts.isRowScoped pattern.id = false ∧
          ∃ between,
            session.DelegatesQuietly t s column (some (.stringMatch (.single c))) between ∧
            between.Delegates t s pattern none) ∧
    ∀ column : Expr,
      (session.Delegates t s column (some (.stringMatch (.single c))) →
        s.Honoured (some (.single c)) column) ∧
      (¬ column.IsReference →
        (session.Delegates t s column (some (.stringMatch (.single c))) ↔
          session.Delegates t s column none)) := by
  refine ⟨⟨?_, ?_⟩, fun column => ⟨?_, ?_⟩⟩
  · intro h
    obtain ⟨-, q, hacc⟩ := delegates_iff.mp h
    obtain ⟨hready, hconst, hhas, column, pattern, m, hargs, hout, hcolumn, hpattern⟩ :=
      (Scope.match_accepts_iff hrow hf hc).mp hacc
    exact ⟨hready, Scope.isConstant_iff.mp hconst, hhas, column, pattern, hargs, hout,
      (accepts_in_turn_iff hn t).mp ⟨m, q, hcolumn, hpattern⟩⟩
  · rintro ⟨hready, hconst, hhas, column, pattern, hargs, hout, hturns⟩
    obtain ⟨m, q, hcolumn, hpattern⟩ := (accepts_in_turn_iff hn t).mpr hturns
    have hacc : (s.callRule id (s.judgeArgs args)).Accepts session.newPass q :=
      (Scope.match_accepts_iff hrow hf hc).mpr ⟨hready, Scope.isConstant_iff.mpr hconst, hhas,
        column, pattern, m, hargs, hout, hcolumn, hpattern⟩
    exact delegates_iff.mpr ⟨hn, q, hacc⟩
  · intro h
    obtain ⟨-, q, hacc⟩ := delegates_iff.mp h
    exact Scope.AcceptedBelow.honoured ⟨_, session.newPass, q, rfl, hacc⟩
  · intro href
    rw [delegates_iff, delegates_iff, Scope.validateNode_of_not_reference href]

end Session

/-! ## A match of a literal

`StartsWith(City, "a")` as in `Sample.formula`, and `StartsWith("abc", "a")` in its place. -/

namespace Sample

def cityMatch : Expr := .call 5 matchHead [.first 3 city, .literal 4 (.str "a")]

def literalMatch : Expr := .call 5 matchHead [.literal 3 (.str "abc"), .literal 4 (.str "a")]

theorem city_match_delegates :
    scope.facts.isRowScoped 5 = true ∧ scope.facts.callee? 5 = some .startsWith ∧
      ({} : Session).Delegates silent scope cityMatch none ∧
      scope.Honoured (some (.single .startsWith)) (.first 3 city) := by
  have hrow : scope.facts.isRowScoped 5 = true := rfl
  have hf : scope.facts.callee? 5 = some .startsWith := rfl
  obtain ⟨hiff, hcolumn⟩ := Session.match_delegates_iff (by decide) hrow hf rfl _
    [.first 3 city, .literal 4 (.str "a")] none {} silent
  refine ⟨hrow, hf, hiff.mpr ?_, (hcolumn (.first 3 city)).1 ⟨_, _, rfl, rfl⟩⟩
  exact ⟨⟨Or.inl rfl, Or.inl rfl⟩, Or.inl rfl, rfl, .first 3 city, .literal 4 (.str "a"), rfl, rfl,
    _, ⟨_, rfl, rfl, rfl, rfl, rfl⟩, _, _, rfl, rfl⟩

theorem literal_match_delegates :
    scope.facts.isRowScoped 5 = true ∧ scope.facts.callee? 5 = some .startsWith ∧
      ({} : Session).Delegates silent scope literalMatch none ∧
      ∃ first rest, literalMatch = .call 5 matchHead (first :: rest) ∧ ¬ first.IsReference :=
  ⟨rfl, rfl, ⟨_, _, rfl, rfl⟩, _, _, rfl, id⟩

end Sample

end Delegability
