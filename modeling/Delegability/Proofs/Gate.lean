/-
# `Delegability.Proofs.Gate` — effects and waiting come first

A node with effects is not sent to a source, and outside the row a node that waits is not either.
These are the first questions about a node, and outside the row they are the only ones.  Each kind
of node comes to them by a way of its own:

    bare name, call          effects and waiting, then the rest if it depends on the row
    access                   effects, then the rest; outside the row effects and waiting
    operator, anything else  the same

There are nodes that are never asked (`Gated` holds of all others): literals; calls of `User` and
casts, which have rules of their own; and the pick of an option, outside the row.

What the ways have in common are two equations between checks, whatever the pass:

    effects that matter   ⟹  the check is the rejection of the node   (`validateNode_of_effects`)
    outside the row       ⟹  the check is `readiness`                 (`validateNode_of_outside`)

The second has neither the operands, nor the facet, nor the operator above on its right side.
-/
import Delegability.Proofs.Locality
import Delegability.Proofs.Skeleton

namespace Delegability

namespace Scope

variable {s : Scope} {id : NodeId} {k : NodeKind} {e : Expr} {op : Option Strategy}

/-! ## The two questions -/

/-- Why a node with effects is rejected. -/
def effectsReason (s : Scope) (id : NodeId) (k : NodeKind) : Rejection :=
  ⟨.impureNode, id, k, .suggestRemoteExecution s.function.name,
    Context.asyncOrImpure k (s.facts.isAsync id) false⟩

/-- Why a node that waits is rejected. -/
def waitingReason (s : Scope) (id : NodeId) (k : NodeKind) : Rejection :=
  ⟨.asyncPredicate, id, k, .suggestRemoteExecution s.function.name,
    Context.asyncOrImpure k true true⟩

theorem purity_of_effects (h : ¬ s.IsPure id) :
    s.purity id k = Check.reject (s.effectsReason id k) :=
  purity_of_not_pure h

theorem readiness_of_effects (h : ¬ s.IsPure id) :
    s.readiness id k = Check.reject (s.effectsReason id k) := by
  rw [readiness, purity_of_effects h, Check.reject_andThen]

theorem readiness_of_ready (h : s.IsReady id k) : s.readiness id k = Check.accept := by
  obtain ⟨hpure, hsync | ⟨hallow, hkind⟩⟩ := h
  · rw [readiness_of_sync hsync, purity_of_pure hpure]
  · rw [readiness, purity_of_pure hpure, Check.accept_andThen, hallow, hkind]
    exact ite_self _

theorem readiness_of_waiting (hpure : s.IsPure id) (h : ¬ s.IsReady id k) :
    s.readiness id k = Check.reject (s.waitingReason id k) := by
  have hasync : s.facts.isAsync id = true := by
    rw [← Bool.not_eq_false]
    exact fun hsync => h ⟨hpure, Or.inl hsync⟩
  have hforbid : (s.facts.features.allowAsync && k.isAsyncDelegable) = false := by
    rw [← Bool.not_eq_true, Bool.and_eq_true]
    exact fun hallow => h ⟨hpure, Or.inr hallow⟩
  rw [readiness, purity_of_pure hpure, Check.accept_andThen, hasync, hforbid]
  rfl

/-- The questions are answered at once, whatever the pass. -/
theorem readiness_cases (s : Scope) (id : NodeId) (k : NodeKind) :
    s.readiness id k = Check.accept ∨ ∃ r, s.readiness id k = Check.reject r := by
  by_cases hready : s.IsReady id k
  · exact Or.inl (readiness_of_ready hready)
  · by_cases hpure : s.IsPure id
    · exact Or.inr ⟨_, readiness_of_waiting hpure hready⟩
    · exact Or.inr ⟨_, readiness_of_effects hpure⟩

/-! ## Every way to them -/

/-- The access picks a value out of an option set or a view. -/
def PicksOption (s : Scope) (id left : NodeId) : Prop :=
  (s.facts.type? left = some .optionSet ∧ s.facts.type? id = some .optionSetValue) ∨
    (s.facts.type? left = some .view ∧ s.facts.type? id = some .viewValue)

theorem isOptionAccess_iff {left : NodeId} :
    s.isOptionAccess id left = true ↔ s.PicksOption id left := by
  unfold isOptionAccess PicksOption
  split
  next hl hi => simp [hl, hi]
  next hl hi => simp [hl, hi]
  next hno hno' =>
    simp only [Bool.false_eq_true, false_iff, not_or]
    exact ⟨fun h => hno h.1 h.2, fun h => hno' h.1 h.2⟩

/-- The node is asked about its effects. -/
def Gated (s : Scope) : Expr → Prop
  | .literal .. => False
  | .call id .. => s.facts.callee? id ≠ some .user ∧ s.facts.callee? id ≠ some .asType
  | .dotted id left _ => s.facts.isRowScoped id = false → ¬ s.PicksOption id left.id
  | .first .. | .binary .. | .unary .. | .other .. => True

/-- Outside the row, nothing is asked but what is asked first. -/
theorem validateNode_of_outside (hg : s.Gated e) (hrow : s.facts.isRowScoped e.id = false) :
    s.validateNode e op = s.readiness e.id e.kind := by
  cases e with
  | literal id value => exact hg.elim
  | first id name =>
      have hrow : s.facts.isRowScoped id = false := hrow
      show s.firstRule id name op = _
      rw [firstRule, hrow]
      exact Check.andThen_accept _
  | call id head args =>
      have hrow : s.facts.isRowScoped id = false := hrow
      show s.callRule id (s.judgeArgs args) = _
      rw [callRule_of_other hg.1 hg.2, genericCall, hrow]
      exact Check.andThen_accept _
  | dotted id left right =>
      have hrow : s.facts.isRowScoped id = false := hrow
      have hoption : s.isOptionAccess id left.id = false := by
        rw [← Bool.not_eq_true, isOptionAccess_iff]
        exact hg hrow
      show s.dottedRule id left right _ op = _
      rw [dottedRule, hrow, hoption]
      rfl
  | binary | unary | other => exact if_neg (Bool.eq_false_iff.mp hrow)

/-- Every way to a verdict starts with effects. -/
theorem exists_purity_andThen (hg : s.Gated e) :
    ∃ rest, s.validateNode e op = Check.andThen (s.purity e.id e.kind) rest := by
  by_cases hrow : s.facts.isRowScoped e.id = true
  · cases e with
    | literal id value => exact hg.elim
    | first id name => exact ⟨_, Check.andThen_assoc _ _ _⟩
    | call id head args =>
        exact ⟨_, (callRule_of_other hg.1 hg.2).trans (Check.andThen_assoc _ _ _)⟩
    | dotted | binary | unary | other => exact ⟨_, if_pos hrow⟩
  · exact ⟨_, validateNode_of_outside hg (Bool.eq_false_iff.mpr hrow)⟩

/-- So effects that matter are the reason, whatever else there is to say. -/
theorem validateNode_of_effects (hg : s.Gated e) (h : ¬ s.IsPure e.id) :
    s.validateNode e op = Check.reject (s.effectsReason e.id e.kind) := by
  obtain ⟨rest, hrest⟩ := exists_purity_andThen hg
  rw [hrest, purity_of_effects h, Check.reject_andThen]

/-- Outside the row it does not matter what stands below the node or above it, nor what the
source supports. -/
theorem validateNode_outside_congr {u : Scope} {e' : Expr} {op' : Option Strategy}
    (hg : s.Gated e) (hrow : s.facts.isRowScoped e.id = false) (hg' : u.Gated e')
    (hid : e'.id = e.id) (hkind : e'.kind = e.kind) (hfunction : u.function = s.function)
    (hfeatures : u.facts.features = s.facts.features)
    (hrecord : u.facts.facts? e.id = s.facts.facts? e.id) :
    u.validateNode e' op' = s.validateNode e op := by
  have hagree : s.AgreeOn (· = e.id) { u with facet := s.facet } := by
    refine ⟨hfunction, rfl, hfeatures, ?_⟩
    rintro _ rfl
    exact hrecord
  have hrow' : u.facts.isRowScoped e'.id = false := by
    rw [hid]
    exact (hagree.isRowScoped rfl).trans hrow
  rw [validateNode_of_outside hg hrow, validateNode_of_outside hg' hrow', hid, hkind]
  exact hagree.readiness rfl

end Scope

/-! ## Validations -/

theorem NodeKind.isAsyncDelegable_iff {k : NodeKind} :
    k.isAsyncDelegable = true ↔ k = .call ∨ k = .firstName ∨ k = .dottedName := by
  cases k <;> decide

namespace Session

variable {session : Session} {t : Tracker} {s : Scope} {root : Expr} {op : Option Strategy}

/-- The validation ends in one rejection, which is of the formula's own root. -/
def RejectsItself (session : Session) (t : Tracker) (s : Scope) (root : Expr)
    (op : Option Strategy) (status : Status) : Prop :=
  ∃ report after r, session.validate t s root op = .ok (report, after) ∧
    report.delegable = false ∧ report.status? = some status ∧ report.rejections = [r] ∧
    r.status = status ∧ r.node = root.id ∧ r.kind = root.kind

theorem rejectsItself_of_reject {r : Rejection} (hn : s.function.name ≠ "")
    (h : s.validateNode root op = Check.reject r) (hnode : r.node = root.id)
    (hkind : r.kind = root.kind) : session.RejectsItself t s root op r.status := by
  obtain ⟨after, hrun⟩ := validate_of_reject hn h
  exact ⟨_, after, r, hrun, rfl, rfl, rfl, rfl, hnode, hkind⟩

theorem validate_of_accept (session : Session) (t : Tracker) (hn : s.function.name ≠ "")
    (h : s.validateNode root op = Check.accept) :
    ∃ after, session.validate t s root op = .ok (.ofVerdict s.function root .delegable [], after) := by
  have hgives : (s.validateNode root op).Gives session.newPass .delegable session.newPass := by
    rw [h]
    rfl
  exact ⟨_, validate_eq hn hgives⟩

theorem delegates_outside_iff (hn : s.function.name ≠ "") (hg : s.Gated root)
    (hrow : s.facts.isRowScoped root.id = false) :
    session.Delegates t s root op ↔ s.IsReady root.id root.kind := by
  rw [delegates_iff, Scope.validateNode_of_outside hg hrow]
  simp only [Scope.readiness_accepts]
  constructor
  · rintro ⟨-, q, hready, -⟩
    exact hready
  · intro hready
    exact ⟨hn, session.newPass, hready, rfl⟩

/-- **The gate.**  Take any node but a literal, a call of `User`, a cast, or the pick of an option
outside the row.  If it has effects, and effects are not allowed, it is rejected for them, whatever
else there is to say.  If it has none that matter and does not depend on the row, it is delegable
iff it does not wait, or waiting is allowed and it is a call, a name or an access; otherwise it is
rejected for waiting.  So outside the row the outcome depends neither on what stands below the node
or above it, nor on what the source supports. -/
theorem gate_decides_first {s : Scope} {e : Expr} (hn : s.function.name ≠ "") (hg : s.Gated e)
    (op : Option Strategy) (session : Session) (t : Tracker) :
    (s.facts.isPure e.id = false → s.facts.features.allowImpure = false →
      session.RejectsItself t s e op .impureNode) ∧
    (s.facts.isRowScoped e.id = false →
      s.facts.isPure e.id = true ∨ s.facts.features.allowImpure = true →
      (session.Delegates t s e op ↔ s.facts.isAsync e.id = false ∨
        (s.facts.features.allowAsync = true ∧
          (e.kind = .call ∨ e.kind = .firstName ∨ e.kind = .dottedName))) ∧
      (¬ session.Delegates t s e op → session.RejectsItself t s e op .asyncPredicate)) ∧
    (s.facts.isRowScoped e.id = false →
      ∀ (u : Scope) (e' : Expr) (op' : Option Strategy) (session' : Session) (t' : Tracker),
        u.Gated e' → e'.id = e.id → e'.kind = e.kind → u.function = s.function →
        u.facts.features = s.facts.features → u.facts.facts? e.id = s.facts.facts? e.id →
        ∃ report after report' after', session.validate t s e op = .ok (report, after) ∧
          session'.validate t' u e' op' = .ok (report', after') ∧
          report'.delegable = report.delegable ∧ report'.status? = report.status? ∧
          report'.rejections = report.rejections) := by
  refine ⟨?_, ?_, ?_⟩
  · intro himpure hforbid
    have heffects : ¬ s.IsPure e.id := by
      rintro (h | h)
      · exact absurd (himpure.symm.trans h) Bool.false_ne_true
      · exact absurd (hforbid.symm.trans h) Bool.false_ne_true
    exact rejectsItself_of_reject hn (Scope.validateNode_of_effects hg heffects) rfl rfl
  · intro hrow hpure
    rw [delegates_outside_iff hn hg hrow]
    refine ⟨?_, fun hnot => ?_⟩
    · rw [Scope.IsReady, NodeKind.isAsyncDelegable_iff]
      exact ⟨And.right, And.intro hpure⟩
    · refine rejectsItself_of_reject (r := s.waitingReason e.id e.kind) hn ?_ rfl rfl
      rw [Scope.validateNode_of_outside hg hrow, Scope.readiness_of_waiting hpure hnot]
  · intro hrow u e' op' session' t' hg' hid hkind hfunction hfeatures hrecord
    have hn' : u.function.name ≠ "" := hfunction ▸ hn
    have hcheck : s.validateNode e op = s.readiness e.id e.kind :=
      Scope.validateNode_of_outside hg hrow
    have hcheck' : u.validateNode e' op' = s.readiness e.id e.kind := by
      rw [Scope.validateNode_outside_congr hg hrow hg' hid hkind hfunction hfeatures hrecord, hcheck]
    rcases s.readiness_cases e.id e.kind with hacc | ⟨r, hreject⟩
    · obtain ⟨after, hrun⟩ := session.validate_of_accept t hn (hcheck.trans hacc)
      obtain ⟨after', hrun'⟩ := session'.validate_of_accept t' hn' (hcheck'.trans hacc)
      exact ⟨_, after, _, after', hrun, hrun', rfl, rfl, rfl⟩
    · obtain ⟨after, hrun⟩ := validate_of_reject hn (hcheck.trans hreject)
      obtain ⟨after', hrun'⟩ := validate_of_reject hn' (hcheck'.trans hreject)
      exact ⟨_, after, _, after', hrun, hrun', rfl, rfl, rfl⟩

end Session

/-! ## Waiting for the time

`Now()` and `-Now()` outside the row, where calls may wait: the call may, the operator may not.  A
name that depends on the row and was never resolved has effects besides. -/

namespace Sample

def now : Name := ⟨"Now", by decide⟩

def clockFacts : FactTable where
  facts := .ofList [(0, { isAsync := true }), (1, { isAsync := true }),
    (2, { rowScoped := true, isPure := false })]
  features := { allowAsync := true }

def clock : Scope := ⟨.filter, clockFacts, {}⟩

theorem clock_gate_decides :
    clock.Gated (.call 0 now []) ∧ clock.Gated (.unary 1 .negate (.call 0 now [])) ∧
      clock.Gated (.first 2 name) ∧
      ({} : Session).Delegates silent clock (.call 0 now []) none ∧
      ({} : Session).RejectsItself silent clock (.unary 1 .negate (.call 0 now [])) none
        .asyncPredicate ∧
      ({} : Session).RejectsItself silent clock (.first 2 name) none .impureNode ∧
      ∃ report after report' after',
        ({} : Session).validate silent clock (.unary 1 .negate (.call 0 now [])) none =
          .ok (report, after) ∧
        ({} : Session).validate silent { clock with facet := facet }
          (.unary 1 .not (.literal 0 .null)) (some (.binary .equal)) = .ok (report', after') ∧
        report'.delegable = report.delegable ∧ report'.status? = report.status? ∧
        report'.rejections = report.rejections := by
  have hn : clock.function.name ≠ "" := by decide
  have hcall : clock.Gated (.call 0 now []) := ⟨by decide, by decide⟩
  obtain ⟨-, hwaits, -⟩ := Session.gate_decides_first hn hcall none {} silent
  obtain ⟨-, hnegated, hsame⟩ := Session.gate_decides_first
    (e := .unary 1 .negate (.call 0 now [])) hn trivial none {} silent
  obtain ⟨heffects, -, -⟩ := Session.gate_decides_first (e := .first 2 name) hn trivial none {} silent
  have hno := (hnegated rfl (Or.inl rfl)).1.not.mpr (by decide)
  exact ⟨hcall, trivial, trivial, (hwaits rfl (Or.inl rfl)).1.mpr (Or.inr ⟨rfl, Or.inl rfl⟩),
    (hnegated rfl (Or.inl rfl)).2 hno, heffects rfl rfl,
    hsame rfl { clock with facet := facet } (.unary 1 .not (.literal 0 .null))
      (some (.binary .equal)) {} silent trivial rfl rfl rfl rfl rfl⟩

end Sample

end Delegability
