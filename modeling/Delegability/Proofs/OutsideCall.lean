/-
# `Delegability.Proofs.OutsideCall` — calls whose value is known before the query

A call that does not depend on the row, has no effects and does not wait can be evaluated once,
before the query is sent.  So nothing should stand against it, whatever it calls and whatever it
is applied to.  Each function has to see to that, since its rule is all that is asked:

    `User`                     delegable anywhere
    a cast                     does not look at the row
    any other, or unresolved   the gate, and nothing else outside the row

The cast is the exception.  It is judged as if the source had to evaluate it: the source must know
casts, there must be something to cast, and that is judged in turn.
`Session.outsideCall_delegates_iff` says exactly when the call is delegable and what is said where
it is not; `Sample.outside_cast_rejected` is a cast of a value that is known.
-/
import Delegability.Proofs.Gate

namespace Delegability

namespace Scope

/-- The call can be evaluated before the query is sent. -/
structure IsOutsideCall (s : Scope) (id : NodeId) : Prop where
  outside : s.facts.isRowScoped id = false
  pure : s.facts.isPure id = true
  sync : s.facts.isAsync id = false

variable {s : Scope} {id : NodeId} {head : Name} {args : List Expr} {op : Option Strategy}

theorem IsOutsideCall.isReady (h : s.IsOutsideCall id) : s.IsReady id .call :=
  ⟨Or.inl h.pure, Or.inl h.sync⟩

/-- Casts apart, nothing stands against it. -/
theorem IsOutsideCall.validateNode_eq_accept (h : s.IsOutsideCall id)
    (hcast : s.facts.callee? id ≠ some .asType) :
    s.validateNode (.call id head args) op = Check.accept := by
  by_cases huser : s.facts.callee? id = some .user
  · show s.callRule id (s.judgeArgs args) = Check.accept
    rw [callRule, huser]
  · have hg : s.Gated (.call id head args) := ⟨huser, hcast⟩
    rw [validateNode_of_outside hg h.outside]
    exact readiness_of_ready h.isReady

/-! ## Casts

Neither the row, nor effects, nor waiting is asked about, so these hold of every cast. -/

theorem validateNode_of_cast (hcast : s.facts.callee? id = some .asType) :
    s.validateNode (.call id head args) op = s.castRule id (s.judgeArgs args) :=
  callRule_of_cast hcast

theorem validateNode_of_supported_cast {source : Expr} {rest : List Expr}
    (hcast : s.facts.callee? id = some .asType) (hhas : s.facet.table.has .asType = true) :
    s.validateNode (.call id head (source :: rest)) op = s.validateNode source none := by
  have hallow : s.facet.allowsOnTable (.single .asType) = true := by
    rwa [Facet.allowsOnTable, CapabilitySet.hasAll_single]
  rw [validateNode_of_cast hcast]
  unfold castRule
  rw [hallow]
  rfl

theorem validateNode_of_unsupported_cast (hcast : s.facts.callee? id = some .asType)
    (h : s.facet.table.has .asType = false ∨ args = []) :
    ∃ r, s.validateNode (.call id head args) op = Check.reject r ∧
      r.status = .other ∧ r.node = id ∧ r.kind = .call := by
  rw [validateNode_of_cast hcast]
  unfold castRule
  rw [Facet.allowsOnTable, CapabilitySet.hasAll_single]
  cases hhas : s.facet.table.has .asType with
  | false => exact ⟨_, rfl, rfl, rfl, rfl⟩
  | true =>
      obtain rfl := h.resolve_left (by simp [hhas])
      exact ⟨_, rfl, rfl, rfl, rfl⟩

theorem cast_accepts_iff {p q : Pass} (hcast : s.facts.callee? id = some .asType) :
    (s.validateNode (.call id head args) op).Accepts p q ↔ s.facet.table.has .asType = true ∧
      ∃ source rest, args = source :: rest ∧ (s.validateNode source none).Accepts p q := by
  rw [validateNode_of_cast hcast, castRule_accepts]
  refine and_congr_right fun _ => ?_
  cases args with
  | nil => simp [judgeArgs]
  | cons source rest => simp [judgeArgs, validateNode]

end Scope

/-- **Calls outside the row.**  A call that does not depend on the row, has no effects and does not
wait is delegable quietly, whatever it calls and whatever it is applied to; unless it is a cast.  A
cast is delegable iff the source knows casts and there is a first argument which is delegable.
Without either the cast itself is rejected; with both the outcome is that of the argument. -/
theorem Session.outsideCall_delegates_iff {s : Scope} {id : NodeId} (hn : s.function.name ≠ "")
    (h : s.IsOutsideCall id) (head : Name) (args : List Expr) (op : Option Strategy)
    (session : Session) (t : Tracker) :
    ((∃ after, session.DelegatesQuietly t s (.call id head args) op after) ↔
      (s.facts.callee? id = some .asType → s.facet.table.has .asType = true ∧
        ∃ source rest, args = source :: rest ∧ session.Delegates t s source none)) ∧
    (s.facts.callee? id = some .asType → s.facet.table.has .asType = false ∨ args = [] →
      session.RejectsItself t s (.call id head args) op .other) ∧
    (s.facts.callee? id = some .asType → s.facet.table.has .asType = true →
      ∀ source rest, args = source :: rest →
        ∃ report after report' after',
          session.validate t s (.call id head args) op = .ok (report, after) ∧
          session.validate t s source none = .ok (report', after') ∧
          report.delegable = report'.delegable ∧ report.status? = report'.status? ∧
          report.rejections = report'.rejections) := by
  refine ⟨⟨?_, ?_⟩, ?_, ?_⟩
  · rintro ⟨after, report, hrun, hd, -⟩ hcast
    obtain ⟨-, q, hacc⟩ := Session.delegates_iff.mp ⟨report, after, hrun, hd⟩
    obtain ⟨hhas, source, rest, hargs, hsource⟩ := (Scope.cast_accepts_iff hcast).mp hacc
    exact ⟨hhas, source, rest, hargs, Session.delegates_iff.mpr ⟨hn, q, hsource⟩⟩
  · intro hif
    -- whatever is accepted is accepted quietly
    suffices ∃ q, (s.validateNode (.call id head args) op).Accepts session.newPass q by
      obtain ⟨q, hacc⟩ := this
      obtain ⟨after, hquiet, -⟩ := Session.delegatesQuietly_of_accepts hn hacc
      exact ⟨after, hquiet⟩
    by_cases hcast : s.facts.callee? id = some .asType
    · obtain ⟨hhas, source, rest, hargs, hsource⟩ := hif hcast
      obtain ⟨-, q, hacc⟩ := Session.delegates_iff.mp hsource
      exact ⟨q, (Scope.cast_accepts_iff hcast).mpr ⟨hhas, source, rest, hargs, hacc⟩⟩
    · rw [h.validateNode_eq_accept hcast]
      exact ⟨session.newPass, rfl⟩
  · intro hcast hno
    obtain ⟨r, hreject, hstatus, hnode, hkind⟩ := Scope.validateNode_of_unsupported_cast hcast hno
    exact hstatus ▸ Session.rejectsItself_of_reject hn hreject hnode hkind
  · rintro hcast hhas source rest rfl
    obtain ⟨v, p, hgives, -⟩ := Session.validateNode_once session s source none
    have hgives' : (s.validateNode (.call id head (source :: rest)) op).Gives session.newPass v p := by
      rwa [Scope.validateNode_of_supported_cast hcast hhas]
    exact ⟨_, _, _, _, Session.validate_eq hn hgives', Session.validate_eq hn hgives, rfl, rfl, rfl⟩

/-! ## A value that is cast

`AsType(Profile)` and `StartsWith(Profile)`, with nothing that depends on the row. -/

namespace Sample

def profile : Name := ⟨"Profile", by decide⟩

def profileCast : Expr := .call 1 ⟨"AsType", by decide⟩ [.first 0 profile]

def profileMatch : Expr := .call 2 matchHead [.first 0 profile]

def profileFacts : FactTable where
  facts := .ofList [(0, {}), (1, { callee? := some .asType }), (2, { callee? := some .startsWith })]

def casting (f : Facet) : Scope := ⟨.filter, profileFacts, f⟩

theorem outside_calls_delegate :
    (casting {}).IsOutsideCall 2 ∧ (∀ f, (casting f).IsOutsideCall 1) ∧
      (∃ after, ({} : Session).DelegatesQuietly silent (casting {}) profileMatch none after) ∧
      ({} : Session).RejectsItself silent (casting {}) profileCast none .other ∧
      ∃ after, ({} : Session).DelegatesQuietly silent (casting { table := .single .asType })
        profileCast none after := by
  have hn : DelegableFunction.filter.name ≠ "" := by decide
  have hmatch : (casting {}).IsOutsideCall 2 := ⟨rfl, rfl, rfl⟩
  have hcast : ∀ f, (casting f).IsOutsideCall 1 := fun _ => ⟨rfl, rfl, rfl⟩
  obtain ⟨hmatches, -, -⟩ :=
    Session.outsideCall_delegates_iff hn hmatch _ [.first 0 profile] none {} silent
  obtain ⟨-, hrejects, -⟩ :=
    Session.outsideCall_delegates_iff hn (hcast {}) _ [.first 0 profile] none {} silent
  obtain ⟨hcasts, -, -⟩ := Session.outsideCall_delegates_iff hn
    (hcast { table := .single .asType }) _ [.first 0 profile] none {} silent
  exact ⟨hmatch, hcast, hmatches.mpr nofun, hrejects rfl (Or.inl rfl),
    hcasts.mpr fun _ => ⟨rfl, _, _, rfl, _, _, rfl, rfl⟩⟩

theorem outside_cast_rejected :
    (casting {}).function.name ≠ "" ∧ (casting {}).IsOutsideCall 1 ∧
      ¬ ({} : Session).Delegates silent (casting {}) profileCast none := by
  refine ⟨by decide, ⟨rfl, rfl, rfl⟩, ?_⟩
  rintro ⟨report, after, h, hd⟩
  have hrun : (({} : Session).validate silent (casting {}) profileCast none).map (·.1.delegable) =
      .ok false := rfl
  rw [h] at hrun
  exact absurd (hd.symm.trans (Except.ok.inj hrun)) (by decide)

end Sample

end Delegability
