/-
# `Delegability.Proofs.Violations` — rules are applied where they may be

A violation is a fault of whoever applies a rule, not of a formula.  There are three: to validate
for a function without a name, to ask the column rule about a name outside the row, to take an
operator for membership that is none.  None is caught anywhere, so a violation at any node would
be the outcome of the whole call.  That it never is comes up through the layers, each of which
adds one thing:

    rules         the column rule is asked inside the row only, membership of its operators only
    validation    the function has a name
    analysis      functions of the registry have names; every operator has a strategy
    the program   whatever else goes wrong is a failure, and has a code

What is left is the column rule, asked by hand (`RuleCall.run_eq_error_iff`).
-/
import Delegability.Command
import Delegability.Proofs.Accounting
import Delegability.Proofs.Resolution

namespace Delegability

/-! ## Rules and validations -/

/-- The one violation that asking a rule comes to. -/
theorem RuleCall.run_eq_error_iff {c : RuleCall} {s : Scope} {p : Pass} {v : Violation} :
    (c.run s).run p = .error v ↔ ∃ name, c.Violates s name ∧ v = .columnOutsideRow name := by
  constructor
  · intro h
    rcases c.answers_or_violates s p with ⟨a, q, hgives, -⟩ | ⟨name, hviolates⟩
    · cases h.symm.trans hgives
    · have hrun := RuleCall.run_of_violates hviolates p
      exact ⟨name, hviolates, Except.error.inj (h.symm.trans hrun)⟩
  · rintro ⟨name, hviolates, rfl⟩
    exact RuleCall.run_of_violates hviolates p

theorem Session.validate_answers (session : Session) (t : Tracker) {s : Scope}
    (hn : s.function.name ≠ "") (root : Expr) (op : Option Strategy) :
    ∃ report after, session.validate t s root op = .ok (report, after) := by
  obtain ⟨v, p, hv, -⟩ := Session.validateNode_once session s root op
  exact ⟨_, _, Session.validate_eq hn hv⟩

/-! ## Analysis -/

theorem Problem.exists_strategy (p : Problem) : ∃ op, p.strategy = .ok op := by
  unfold Problem.strategy
  cases p.operator with
  | none => exact ⟨none, rfl⟩
  | some op => cases op <;> exact ⟨_, rfl⟩

/-- An analysis has an outcome as soon as its case can be resolved. -/
theorem Analysis.run_ok_or_fault (stamp : Nat → Stamp) (config : Config) (c : Case) :
    (∃ a, Analysis.run stamp config c = .ok a) ∨
      ∃ why, c.resolve .builtins config.features = .error why ∧
        Analysis.run stamp config c = .error (.fault why) := by
  cases hc : c.resolve .builtins config.features with
  | error why =>
      refine Or.inr ⟨why, rfl, ?_⟩
      unfold Analysis.run
      rw [hc]
      rfl
  | ok p =>
      obtain ⟨op, hop⟩ := p.exists_strategy
      obtain ⟨v, q, hv, -⟩ := Session.validateNode_once {} p.scope p.expression op
      exact Or.inl ⟨_, Analysis.run_eq_hear stamp hc hop hv⟩

/-! ## Calls of the program -/

namespace Run

variable {α β ε : Type}

/-- Wherever it starts, the part of a call does not end in a violation. -/
def Coded (m : Run α) : Prop := ∀ j v, (m.run j).1 ≠ .error (.violation v)

theorem coded_pure (a : α) : (pure a : Run α).Coded := by
  intro j v h
  cases h

theorem Coded.bind {m : Run α} {f : α → Run β} (hm : m.Coded) (hf : ∀ a, (f a).Coded) :
    (m >>= f).Coded := by
  intro j v h
  have hrun : (m >>= f).run j = (fun x => ExceptT.bindCont f x.1 x.2) (m.run j) := rfl
  rw [hrun] at h
  cases hmj : m.run j with
  | mk x j' =>
      rw [hmj] at h
      cases x with
      | ok a => exact hf a j' v h
      | error e =>
          have hstop : (m.run j).1 = .error (.violation v) := by
            rw [hmj]
            exact congrArg Except.error (Except.error.inj h)
          exact hm j v hstop

theorem coded_fail (f : Failure) : (fail f : Run α).Coded := by
  intro j v h
  cases h

theorem coded_orFail (failure : ε → Failure) (x : Except ε α) : (orFail failure x).Coded := by
  cases x with
  | ok a => exact coded_pure a
  | error e => exact coded_fail (failure e)

theorem coded_modify (f : Journal → Journal) : (modify f : Run Unit).Coded := by
  intro j v h
  cases h

theorem coded_loadConfig (env : Environment) (path : Option String) :
    (loadConfig env path).Coded := by
  -- the rest is the same whether a file was named or not
  have hrest : ∀ config : Config, (do
      modify fun j => { j with minimum := config.severity }
      logEvent .configLoaded
        [("log_level", config.severity.name), ("source", path.getD defaultSource)]
      return config : Run Config).Coded := fun config =>
    (coded_modify _).bind fun _ => Coded.bind (coded_modify _) fun _ => coded_pure config
  cases path with
  | none => exact (coded_pure _).bind hrest
  | some p => exact (coded_orFail _ _).bind hrest

theorem coded_readInput (env : Environment) (path : Option String) : (readInput env path).Coded := by
  refine (coded_orFail _ _).bind fun text => ?_
  split
  · exact coded_fail _
  · exact coded_pure text

theorem coded_loadCase (env : Environment) (path : Option String) : (loadCase env path).Coded := by
  refine (coded_readInput env path).bind fun text => (coded_orFail _ _).bind fun case =>
    Coded.bind (coded_modify _) fun _ => ?_
  split
  · exact coded_fail _
  · exact coded_pure case

theorem coded_analyse (env : Environment) (config : Config) (case : Case) :
    (analyse env config case).Coded := by
  unfold analyse
  rcases Analysis.run_ok_or_fault env.stamp config case with ⟨a, hrun⟩ | ⟨why, -, hrun⟩
  · rw [hrun]
    exact Coded.bind (coded_modify _) fun _ => coded_pure a
  · rw [hrun]
    exact coded_fail _

theorem coded_call (env : Environment) (i : Invocation) : (call env i).Coded := by
  refine (coded_loadConfig env i.config).bind fun config =>
    (coded_loadCase env i.input).bind fun case => ?_
  have hanalyse := coded_analyse env config case
  cases i.action with
  | check => exact hanalyse.bind fun a => coded_pure _
  | explain =>
      exact Coded.bind (coded_modify _) fun _ => hanalyse.bind fun a =>
        Coded.bind (coded_modify _) fun _ => coded_pure _

end Run

/-- A call ends with its output and the code 0, or with a failure and the code 1. -/
theorem Invocation.run_ok_or_failure (i : Invocation) (env : Environment) :
    (∃ text, (i.run env).result = .ok text ∧ (i.run env).exitCode = 0) ∨
      ∃ f, (i.run env).result = .error (.failure f) ∧ (i.run env).exitCode = 1 := by
  unfold Outcome.exitCode
  cases h : (i.run env).result with
  | ok text => exact Or.inl ⟨text, rfl, rfl⟩
  | error stop =>
      cases stop with
      | failure f => exact Or.inr ⟨f, rfl, rfl⟩
      | violation v => exact absurd h (Run.coded_call env i {} v)

/-- **No violation.**  A validation for a function with a name ends with a report, whatever is
known or not known about the nodes.  An analysis ends with a result, or with the fault for which
its case cannot be resolved; a call of the program ends with its output, or with a failure that
has a code.  A rule asked by hand violates in one case: the column rule, about a name outside the
row. -/
theorem violation_by_hand_only :
    (∀ (session : Session) (t : Tracker) (s : Scope) (root : Expr) (op : Option Strategy),
      s.function.name ≠ "" → ∃ report after, session.validate t s root op = .ok (report, after)) ∧
    (∀ (stamp : Nat → Stamp) (config : Config) (c : Case),
      (∃ a, Analysis.run stamp config c = .ok a) ∨
        ∃ why, c.resolve .builtins config.features = .error why ∧
          Analysis.run stamp config c = .error (.fault why)) ∧
    (∀ (i : Invocation) (env : Environment),
      (∃ text, (i.run env).result = .ok text ∧ (i.run env).exitCode = 0) ∨
        ∃ f, (i.run env).result = .error (.failure f) ∧ (i.run env).exitCode = 1) ∧
    ∀ (c : RuleCall) (s : Scope) (p : Pass) (v : Violation),
      (c.run s).run p = .error v ↔ ∃ name, c.Violates s name ∧ v = .columnOutsideRow name :=
  ⟨fun session t _ root op hn => session.validate_answers t hn root op, Analysis.run_ok_or_fault,
    Invocation.run_ok_or_failure, fun _ _ _ _ => RuleCall.run_eq_error_iff⟩

/-! ## A name that is lost

`Name = …`, where the operator depends on the row and nothing is known about the name. -/

namespace Sample

def stray : Scope := ⟨.filter, { facts := .ofList [(2, { rowScoped := true })] }, facet⟩

theorem stray_violates_by_hand_only :
    stray.function.name ≠ "" ∧
      (∃ report after, ({} : Session).validate silent stray
        (.binary 2 .equal (.first 0 name) (.literal 1 .null)) none = .ok (report, after)) ∧
      ((RuleCall.column 0 name none .none).run stray).run {} = .error (.columnOutsideRow "Name") := by
  have hn : stray.function.name ≠ "" := by decide
  obtain ⟨hvalidation, -, -, hrule⟩ := violation_by_hand_only
  exact ⟨hn, hvalidation {} silent stray _ none hn, (hrule _ stray {} _).mpr ⟨_, ⟨rfl, rfl⟩, rfl⟩⟩

end Sample

end Delegability
