/-
# `Delegability.Proofs.History` — what came before does not matter

A session hands marks on from task to task, and rules read marks.  Yet no task can see
what was done before it, as long as the nodes of the formula differ in identity: marks
are set at accesses, and read at calls (`Scope.MayMark`, `Expr.HasCall`).

    p.AlikeOn N p'    the same marks on `N`
    p.Alike N p'      and the same findings

From alike passes a rule does the same (`judge_respects`).  If only the marks agree, as
within a pass that has already rejected something, the reason given may differ, since a
node is rejected once per pass, but whether the rule accepts does not
(`Within.judge_follows`, both ways).  With `judge_settled` for the marks that a task
leaves behind, a run is what each of its tasks gives alone (`Session.run_eq_alone`).
-/
import Delegability.Proofs.Monotonicity
import Delegability.Proofs.Transcript
import Mathlib.Data.List.Nodup

namespace Delegability

/-! ## Distinct identities -/

namespace Expr

/-- No two nodes share an identity. -/
def Distinct (e : Expr) : Prop := (e.postorder.map Expr.id).Nodup

instance (e : Expr) : Decidable e.Distinct :=
  inferInstanceAs (Decidable (e.postorder.map Expr.id).Nodup)

/-- An access does not share its identity with a call. -/
theorem Distinct.not_hasCall {e : Expr} {id : NodeId} (hd : e.Distinct) (h : e.HasAccess id) :
    ¬ e.HasCall id := by
  obtain ⟨left, right, hx⟩ := h
  rintro ⟨head, args, hy⟩
  have hxy : Expr.dotted id left right = .call id head args :=
    List.inj_on_of_nodup_map hd hx hy rfl
  cases hxy

end Expr

/-! ## Alike passes -/

namespace Pass

/-- The same nodes of `N` are marked. -/
def AlikeOn (N : NodeId → Prop) (p p' : Pass) : Prop := ∀ id, N id → (id ∈ p.marks ↔ id ∈ p'.marks)

/-- The same was found, and the same nodes of `N` are marked. -/
structure Alike (N : NodeId → Prop) (p p' : Pass) : Prop where
  findings : p'.findings = p.findings
  marks : p.AlikeOn N p'

variable {N : NodeId → Prop} {p p' p'' : Pass}

theorem AlikeOn.symm (h : p.AlikeOn N p') : p'.AlikeOn N p := fun id hid => (h id hid).symm

theorem AlikeOn.trans (h : p.AlikeOn N p') (h' : p'.AlikeOn N p'') : p.AlikeOn N p'' :=
  fun id hid => (h id hid).trans (h' id hid)

theorem Alike.rejections (h : p.Alike N p') : p'.rejections = p.rejections := by
  unfold Pass.rejections
  rw [h.findings]

theorem Alike.note (h : p.Alike N p') (f : Finding) : (p.note f).Alike N (p'.note f) :=
  ⟨congrArg (· ++ [f]) h.findings, h.marks⟩

theorem Alike.noteRejection (h : p.Alike N p') (r : Rejection) :
    (p.noteRejection r).Alike N (p'.noteRejection r) := by
  have hrej : p'.hasRejected r.node = p.hasRejected r.node := by
    unfold hasRejected
    rw [h.rejections]
  unfold Pass.noteRejection
  rw [hrej]
  split
  · exact h
  · exact h.note _

theorem Alike.mark (h : p.Alike N p') (id : NodeId) : (p.mark id).Alike N (p'.mark id) := by
  refine ⟨by simp [h.findings], fun x hx => ?_⟩
  rw [mem_marks_mark, mem_marks_mark, h.marks x hx]

theorem AlikeOn.isConstant (h : p.AlikeOn N p') (s : Scope) {id : NodeId} (hid : N id) :
    s.isConstant p' id = s.isConstant p id := by
  rw [Bool.eq_iff_iff, Scope.isConstant_iff, Scope.isConstant_iff, h id hid]

theorem AlikeOn.constantsWithin (h : p.AlikeOn N p') (s : Scope) : s.ConstantsWithin s N p p' := by
  intro id hid hc
  rw [h.isConstant s hid]
  exact hc

end Pass

/-! ## Checks that do the same from alike passes -/

namespace Check

variable {α β : Type} {N : NodeId → Prop}

/-- From alike passes the check gives the same and leaves alike passes behind. -/
def Respects (N : NodeId → Prop) (c : Check α) : Prop := ∀ a, c.Follows (Pass.Alike N) a c

theorem respects_pure (a : α) : (pure a : Check α).Respects N := by
  intro b p p' q hR hgives
  obtain ⟨hab, rfl⟩ := gives_pure.mp hgives
  exact ⟨p', gives_pure.mpr ⟨hab, rfl⟩, hR⟩

theorem Respects.bind {c : Check α} {f : α → Check β} (hc : c.Respects N)
    (hf : ∀ a, (f a).Respects N) : (c >>= f).Respects N := by
  intro b p p' q hR hgives
  obtain ⟨a, m, hm, hq⟩ := gives_bind.mp hgives
  obtain ⟨m', hm', hRm⟩ := hc a p p' m hR hm
  obtain ⟨q', hq', hRq⟩ := hf a b m m' q hRm hq
  exact ⟨q', gives_bind.mpr ⟨a, m', hm', hq'⟩, hRq⟩

theorem respects_modify {f : Pass → Pass} (hf : ∀ p p', p.Alike N p' → (f p).Alike N (f p')) :
    (modify f : Check Unit).Respects N := by
  intro u p p' q hR hgives
  obtain rfl := gives_modify.mp hgives
  exact ⟨f p', gives_modify.mpr rfl, hf p p' hR⟩

/-- Reading the pass is harmless where alike passes read the same. -/
theorem respects_get_bind {f : Pass → Check β} (heq : ∀ p p', p.Alike N p' → f p' = f p)
    (hf : ∀ p, (f p).Respects N) : (get >>= f).Respects N := by
  intro b p p' q hR hgives
  obtain ⟨_, _, hget, hq⟩ := gives_bind.mp hgives
  obtain ⟨rfl, rfl⟩ := gives_get.mp hget
  obtain ⟨q', hq', hRq⟩ := hf p b p p' q hR hq
  refine ⟨q', gives_bind.mpr ⟨p', p', gives_get.mpr ⟨rfl, rfl⟩, ?_⟩, hRq⟩
  rw [heq p p' hR]
  exact hq'

theorem respects_throw (v : Violation) : (throw v : Check α).Respects N :=
  fun _ _ _ _ _ h => absurd h not_gives_throw

theorem Respects.ite {c d : Check α} {b : Prop} [Decidable b] (hc : c.Respects N)
    (hd : d.Respects N) : (if b then c else d).Respects N := by
  split
  · exact hc
  · exact hd

theorem respects_accept : accept.Respects N := respects_pure _

theorem respects_reject (r : Rejection) : (reject r).Respects N :=
  .bind (respects_modify fun _ _ h => h.noteRejection r) fun _ => respects_pure _

theorem Respects.andThen {first next : Check Verdict} (h₁ : first.Respects N)
    (h₂ : next.Respects N) : (andThen first next).Respects N := by
  refine .bind h₁ fun v => ?_
  cases v with
  | delegable => exact h₂
  | rejected r => exact respects_pure _

end Check

namespace Scope

variable {s : Scope} {N : NodeId → Prop} {id : NodeId} {k : NodeKind} {op : Option Strategy}

/-! ## Rules without nodes below -/

theorem respects_rejectPlainly {status : Status} {context : String} :
    (s.rejectPlainly id k status context).Respects N :=
  Check.respects_reject _

theorem respects_purity : (s.purity id k).Respects N :=
  .ite respects_rejectPlainly Check.respects_accept

theorem respects_readiness : (s.readiness id k).Respects N :=
  respects_purity.andThen <| .ite Check.respects_accept <|
    .ite Check.respects_accept respects_rejectPlainly

theorem respects_rejectEntity {identity : String} :
    (s.rejectEntity id k identity).Respects N :=
  .bind (Check.respects_modify fun _ _ h => h.note _) fun _ => respects_rejectPlainly

theorem respects_supportRule {f : Facet} {path : ColumnPath} {required : CapabilitySet} :
    (s.supportRule id k f path required op).Respects N := by
  refine .ite ?_ (Check.respects_reject _)
  cases op with
  | none => exact Check.respects_accept
  | some op => exact .ite Check.respects_accept (Check.respects_reject _)

theorem respects_columnRule {name : Name} {required : CapabilitySet} :
    (s.columnRule id name op required).Respects N := by
  refine .ite (Check.respects_throw _) ?_
  split
  · exact respects_rejectPlainly
  · split
    · exact respects_rejectEntity
    · exact Check.respects_accept
    · exact respects_supportRule

theorem respects_firstRule {name : Name} : (s.firstRule id name op).Respects N :=
  respects_readiness.andThen (.ite respects_columnRule Check.respects_accept)

theorem respects_resolvedAccess {left : Expr} {right : Name} :
    (s.resolvedAccess id left right op).Respects N := by
  refine .ite Check.respects_accept ?_
  split
  · split
    · exact Check.respects_reject _
    · exact respects_supportRule
  · split
    · exact respects_rejectEntity
    · exact respects_supportRule

theorem respects_rowRule {rule : Check Verdict} (h : rule.Respects N) :
    (s.rowRule id k rule).Respects N :=
  .ite h respects_readiness

/-! ## Rules with nodes below -/

/-- A node from above does the same from alike passes. -/
structure Reading.Respects (N : NodeId → Prop) (r : Reading) : Prop where
  verdict : ∀ op, (r.verdict op).Respects N
  shape : r.shape.Respects N

theorem respects_dottedRule {left : Expr} {right : Name} {shape : Check Shape}
    (h : shape.Respects N) : (s.dottedRule id left right shape op).Respects N := by
  refine .ite (respects_purity.andThen (.bind h fun sh => ?_))
    (.ite Check.respects_accept respects_readiness)
  cases sh with
  | exempted =>
      exact .bind (Check.respects_modify fun _ _ h => h.mark id) fun _ => Check.respects_accept
  | rejected r => exact Check.respects_pure _
  | unsupported => exact respects_rejectPlainly
  | resolvable => exact respects_resolvedAccess

theorem respects_serverSide {f : DelegableFunction} {args : List Reading}
    (h : ∀ r ∈ args, r.Respects N) : (s.serverSide f args).Respects N := by
  unfold serverSide
  split
  next c column pattern hc =>
    refine .ite (Check.respects_pure _) (.bind ((h column (by simp)).verdict _) fun v => ?_)
    cases v with
    | rejected r => exact Check.respects_pure _
    | delegable =>
        refine .ite (Check.respects_pure _) (.bind ((h pattern (by simp)).verdict _) fun w => ?_)
        exact Check.respects_pure _
  next => exact Check.respects_pure _

theorem respects_rowCallRule {args : List Reading} (h : ∀ r ∈ args, r.Respects N) :
    (s.rowCallRule id args).Respects N := by
  unfold rowCallRule
  split
  · exact respects_rejectPlainly
  · -- the pass is read for its rejections only
    refine Check.respects_get_bind (fun p p' hR => by rw [hR.rejections]) fun p => ?_
    refine .bind (respects_serverSide h) fun b => ?_
    refine .ite Check.respects_accept ?_
    refine Check.respects_get_bind (fun m m' hR => by rw [hR.rejections]) fun m => ?_
    split
    · exact Check.respects_pure _
    · exact respects_rejectPlainly

theorem respects_genericCall {args : List Reading} {allowVarying : Bool} (hid : N id)
    (h : ∀ r ∈ args, r.Respects N) : (s.genericCall id args allowVarying).Respects N := by
  refine respects_readiness.andThen (.ite Check.respects_accept ?_)
  -- the pass is read for the mark of the call only
  refine Check.respects_get_bind (fun p p' hR => by rw [hR.marks.isConstant s hid]) fun p => ?_
  exact .ite respects_rejectPlainly (respects_rowCallRule h)

theorem respects_callRule {args : List Reading} (hid : N id) (h : ∀ r ∈ args, r.Respects N) :
    (s.callRule id args).Respects N := by
  unfold callRule
  split
  · exact Check.respects_accept
  · refine .ite (Check.respects_reject _) ?_
    cases args with
    | nil => exact respects_rejectPlainly
    | cons source rest => exact (h source List.mem_cons_self).verdict none
  · exact respects_genericCall hid h

theorem respects_binaryRule {op : BinaryOp} {left right : Reading} (hl : left.Respects N)
    (hr : right.Respects N) : (s.binaryRule id op left right).Respects N := by
  unfold binaryRule
  rw [operandStrategies_eq]
  refine respects_purity.andThen (.ite (Check.respects_reject _) (.ite respects_rejectPlainly ?_))
  exact (hl.verdict _).andThen (hr.verdict _)

theorem respects_unaryRule {op : UnaryOp} {operand : Reading} (ho : operand.Respects N) :
    (s.unaryRule id op operand).Respects N :=
  respects_purity.andThen (.ite (Check.respects_reject _) (ho.verdict _))

theorem respects_otherRule : (s.otherRule id).Respects N :=
  respects_purity.andThen respects_rejectPlainly

/-- Of the marks, the sub-expressions of a formula read those of its calls only. -/
theorem judge_respects {tree e : Expr} :
    e ∈ tree.postorder → (s.judge e).Respects tree.HasCall := by
  induction e using Expr.ind with
  | call id head args ih =>
      intro he
      have hcall : (s.callRule id (s.judgeArgs args)).Respects tree.HasCall :=
        respects_callRule ⟨head, args, he⟩
          (forall_mem_judgeArgs fun a ha => ih a ha (Expr.mem_of_arg he ha))
      refine ⟨fun _ => hcall, .bind hcall fun v => ?_⟩
      cases v <;> exact Check.respects_pure _
  | dotted id left right ih =>
      intro he
      have hleft := ih (Expr.mem_of_dotted he)
      exact ⟨fun _ => respects_dottedRule hleft.shape, hleft.shape⟩
  | first id name => exact fun _ => ⟨fun _ => respects_firstRule, Check.respects_pure _⟩
  | binary id op left right ihl ihr =>
      intro he
      have hl := ihl (Expr.mem_of_left he)
      have hr := ihr (Expr.mem_of_right he)
      exact ⟨fun _ => respects_rowRule (respects_binaryRule hl hr), Check.respects_pure _⟩
  | unary id op operand ih =>
      intro he
      have ho := ih (Expr.mem_of_operand he)
      exact ⟨fun _ => respects_rowRule (respects_unaryRule ho), Check.respects_pure _⟩
  | literal id value => exact fun _ => ⟨fun _ => Check.respects_accept, Check.respects_pure _⟩
  | other id description =>
      exact fun _ => ⟨fun _ => respects_rowRule respects_otherRule, Check.respects_pure _⟩

end Scope

/-! ## Steady answers

Within a pass only the answer itself is compared, not its reason. -/

/-- The step leaves the marks of `N` as they are. -/
theorem Step.alikeOn {N : NodeId → Prop} {K : NodeId → NodeKind → Prop} {M : NodeId → Prop}
    {p q : Pass} {v : Verdict} (h : Step K M p v q) (hM : ∀ id, M id → ¬ N id) : q.AlikeOn N p := by
  intro id hid
  constructor
  · intro hq
    rcases h.marked id hq with hp | hm
    · exact hp
    · exact absurd hid (hM id hm)
  · exact h.kept id

namespace Check

variable {α β : Type} {N : NodeId → Prop}

/-- Passes with the same marks on `N` get the same answer, yes or no, and keep these
marks. -/
def Steady (N : NodeId → Prop) (yes : α → Bool) (c : Check α) : Prop :=
  ∀ p p', p.AlikeOn N p' →
    (∃ v, c.run p = .error v ∧ c.run p' = .error v) ∨
    ∃ a q a' q', c.Gives p a q ∧ c.Gives p' a' q' ∧ yes a = yes a' ∧ q.AlikeOn N p

theorem Steady.map {c : Check α} {f : α → β} {yes : β → Bool}
    (h : c.Steady N fun a => yes (f a)) : (f <$> c).Steady N yes := by
  intro p p' hR
  rcases h p p' hR with ⟨v, hp, hp'⟩ | ⟨a, q, a', q', ha, ha', hyes, hq⟩
  · refine Or.inl ⟨v, ?_, ?_⟩
    · rw [StateT.run_map, hp]
      rfl
    · rw [StateT.run_map, hp']
      rfl
  · exact Or.inr ⟨f a, q, f a', q', gives_map.mpr ⟨a, ha, rfl⟩, gives_map.mpr ⟨a', ha', rfl⟩,
      hyes, hq⟩

/-- A check that always answers, keeps marks and says yes along with itself is steady. -/
theorem steady_of_follows {c : Check α} {yes : α → Bool} {s : Scope} (a₀ : α)
    (hyes : ∀ a, yes a = true ↔ a = a₀) (htotal : ∀ p, ∃ a q, c.Gives p a q ∧ q.AlikeOn N p)
    (hf : c.Follows (s.ConstantsWithin s N) a₀ c) : c.Steady N yes := by
  -- a yes on one side is a yes on the other
  have hsame : ∀ p p' a a' q q', p.AlikeOn N p' → c.Gives p a q → c.Gives p' a' q' →
      yes a = true → yes a' = true := by
    intro p p' a a' q q' hR ha ha' hy
    rw [(hyes a).mp hy] at ha
    obtain ⟨m, hm, -⟩ := hf p p' q (hR.constantsWithin s) ha
    exact (hyes a').mpr (ha'.det hm).1
  intro p p' hR
  obtain ⟨a, q, ha, hq⟩ := htotal p
  obtain ⟨a', q', ha', -⟩ := htotal p'
  refine Or.inr ⟨a, q, a', q', ha, ha', ?_, hq⟩
  rw [Bool.eq_iff_iff]
  exact ⟨hsame p p' a a' q q' hR ha ha', hsame p' p a' a q' q hR.symm ha' ha⟩

theorem Settles.steady {c : Check Verdict} {M : NodeId → Prop}
    (h : c.Settles (fun _ _ => True) M) (s : Scope) (hM : ∀ id, M id → ¬ N id)
    (hf : c.Follows (s.ConstantsWithin s N) .delegable c) : c.Steady N Verdict.isDelegable := by
  refine steady_of_follows .delegable ?_ ?_ hf
  · intro v
    cases v <;> simp [Verdict.isDelegable]
  · intro p
    obtain ⟨v, q, hv, hs⟩ := h p
    exact ⟨v, q, hv, hs.alikeOn hM⟩

end Check

/-! ## Single rules -/

/-- Whether the answer is yes. -/
def RuleAnswer.holds : RuleAnswer → Bool
  | .verdict v => v.isDelegable
  | .serverSide b => b

/-- The rule is asked about nodes of the formula. -/
def RuleCall.On (tree : Expr) : RuleCall → Prop
  | .node e _ => e ∈ tree.postorder
  | .call id args | .genericCall id args _ => ∃ head, .call id head args ∈ tree.postorder
  | .serverSide _ args => ∃ id head, .call id head args ∈ tree.postorder
  | .readiness .. | .column .. | .reject _ => True

section

variable {tree e : Expr} {s : Scope} {id : NodeId} {head : Name} {args : List Expr}

namespace Scope

theorem settled_of_mem (he : e ∈ tree.postorder) :
    (s.judge e).Settled (fun _ _ => True) tree.HasAccess := by
  refine judge_settled (fun _ _ => trivial) (fun id hm => ?_) he
  obtain ⟨left, right, hx, -⟩ := hm
  exact ⟨left, right, hx⟩

theorem args_settled_of_mem (hcall : .call id head args ∈ tree.postorder) :
    ∀ r ∈ s.judgeArgs args, r.Settled (fun _ _ => True) tree.HasAccess :=
  forall_mem_judgeArgs fun _ ha => settled_of_mem (Expr.mem_of_arg hcall ha)

theorem args_follow_of_mem (hcall : .call id head args ∈ tree.postorder) :
    (s.judgeArgs args).Forall₂ (Reading.Follows (s.ConstantsWithin s tree.HasCall))
      (s.judgeArgs args) :=
  forall₂_judgeArgs fun _ ha => (Within.refl s).judge_follows (Expr.mem_of_arg hcall ha)

end Scope

/-- Asked about nodes of a formula with distinct identities, every rule is steady. -/
theorem RuleCall.run_steady (s : Scope) (hd : tree.Distinct) {c : RuleCall} (hon : c.On tree) :
    (c.run s).Steady tree.HasCall RuleAnswer.holds := by
  have hM : ∀ id, tree.HasAccess id → ¬ tree.HasCall id := fun id => hd.not_hasCall
  have hw : s.Within s := .refl s
  cases c with
  | node e op =>
      exact .map ((Scope.settled_of_mem hon).verdict op |>.steady s hM
        ((hw.judge_follows hon).verdict (Or.inl rfl)))
  | readiness id k =>
      exact .map (Check.Settles.steady (Scope.settles_readiness trivial) s hM hw.readiness_follows)
  | column id name op required =>
      refine .map ?_
      cases hrow : s.facts.isRowScoped id with
      | true =>
          exact (Scope.settles_columnRule hrow trivial).steady s hM
            (hw.columnRule_follows (Or.inl rfl))
      | false =>
          refine fun p p' _ => Or.inl ⟨.columnOutsideRow name.text, ?_, ?_⟩ <;>
          · unfold Scope.columnRule
            rw [hrow]
            rfl
  | call id args =>
      obtain ⟨head, hcall⟩ := hon
      exact .map ((Scope.settles_callRule trivial (Scope.args_settled_of_mem hcall)).steady s hM
        (hw.callRule_follows ⟨head, args, hcall⟩ (Scope.args_follow_of_mem hcall)))
  | genericCall id args allowVarying =>
      obtain ⟨head, hcall⟩ := hon
      exact .map ((Scope.settles_genericCall trivial (Scope.args_settled_of_mem hcall)).steady s hM
        (hw.genericCall_follows ⟨head, args, hcall⟩ (Scope.args_follow_of_mem hcall)))
  | serverSide f args =>
      obtain ⟨id, head, hcall⟩ := hon
      refine .map (Check.steady_of_follows true (fun _ => Iff.rfl) (fun p => ?_)
        (hw.serverSide_follows (Scope.args_follow_of_mem hcall)))
      obtain ⟨b, q, hb, hs⟩ := Scope.serverSide_settles (Scope.args_settled_of_mem hcall) p
      rcases hs with hs | ⟨-, r, hs⟩
      · exact ⟨b, q, hb, hs.alikeOn hM⟩
      · exact ⟨b, q, hb, hs.alikeOn hM⟩
  | reject r =>
      refine .map (Check.Settles.steady (Check.settles_reject trivial) s hM ?_)
      exact fun _ _ _ _ h => absurd h Check.not_accepts_reject

end

/-! ## Tasks -/

namespace Session

/-- One thing done in a session. -/
inductive Task where
  /-- A whole validation. -/
  | validation (function : DelegableFunction) (facet : Facet) (root : Expr) (op : Option Strategy)
  /-- A pass in which rules are asked, some with one facet, then some with another. -/
  | pass (function : DelegableFunction) (blocks : List (Facet × List RuleCall))

/-- What is seen of a task: its report, or for each rule whether it says yes. -/
inductive Seen where
  | report (r : Except Violation Report)
  | answers (bs : List (Except Violation Bool))

/-- The task is about nodes of the formula. -/
def Task.On (tree : Expr) : Task → Prop
  | .validation _ _ root _ => root ∈ tree.postorder
  | .pass _ blocks => ∀ b ∈ blocks, ∀ c ∈ b.2, c.On tree

/-- Asks rules block after block in one pass. -/
def askAll (function : DelegableFunction) (facts : FactTable) :
    List (Facet × List RuleCall) → Pass → List (Except Violation RuleAnswer) × Pass
  | [], p => ([], p)
  | (facet, calls) :: blocks, p =>
      let (here, m) := RuleCall.runAll ⟨function, facts, facet⟩ calls p
      let (later, q) := askAll function facts blocks m
      (here ++ later, q)

/-- Does a task: what is seen of it, and the session afterwards.  A violation changes
nothing. -/
def perform (facts : FactTable) (t : Tracker) (session : Session) : Task → Seen × Session
  | .validation function facet root op =>
      match session.validate t ⟨function, facts, facet⟩ root op with
      | .ok (report, after) => (.report (.ok report), after)
      | .error v => (.report (.error v), session)
  | .pass function blocks =>
      let (answers, p) := askAll function facts blocks session.newPass
      (.answers (answers.map (·.map RuleAnswer.holds)), session.finishPass t function.name p)

/-- Does tasks one after the other. -/
def run (facts : FactTable) (t : Tracker) : List Task → Session → List Seen × Session
  | [], session => ([], session)
  | task :: tasks, session =>
      let (seen, next) := session.perform facts t task
      let (later, after) := run facts t tasks next
      (seen :: later, after)

/-- What is seen of a task that is done first, with nothing told yet; and of its rules,
if each is asked in a pass of its own. -/
def Task.alone (facts : FactTable) (t : Tracker) (marks : List NodeId) : Task → Seen
  | .validation function facet root op =>
      .report ((({ marks := marks } : Session).validate t ⟨function, facts, facet⟩ root op).map
        Prod.fst)
  | .pass function blocks =>
      .answers (blocks.flatMap fun b => b.2.map fun c =>
        ((c.run ⟨function, facts, b.1⟩).run { marks := marks }).map fun a => a.1.holds)

section

variable {tree : Expr} {facts : FactTable} {t : Tracker} {marks : List NodeId}

/-! ### Answers -/

theorem runAll_cons_ok {s : Scope} {c : RuleCall} {calls : List RuleCall} {p m : Pass}
    {a : RuleAnswer} (h : (c.run s).Gives p a m) :
    RuleCall.runAll s (c :: calls) p =
      (.ok a :: (RuleCall.runAll s calls m).1, (RuleCall.runAll s calls m).2) := by
  have hrun : (c.run s).run p = .ok (a, m) := h
  simp [RuleCall.runAll, hrun]

theorem runAll_cons_error {s : Scope} {c : RuleCall} {calls : List RuleCall} {p : Pass}
    {v : Violation} (h : (c.run s).run p = .error v) :
    RuleCall.runAll s (c :: calls) p =
      (.error v :: (RuleCall.runAll s calls p).1, (RuleCall.runAll s calls p).2) := by
  simp [RuleCall.runAll, h]

/-- Rules asked one after the other answer as in passes of their own. -/
theorem runAll_steady (s : Scope) (hd : tree.Distinct) {calls : List RuleCall} {p : Pass}
    (hon : ∀ c ∈ calls, c.On tree) (hp : p.AlikeOn tree.HasCall { marks := marks }) :
    (RuleCall.runAll s calls p).1.map (·.map RuleAnswer.holds) =
        calls.map (fun c => ((c.run s).run { marks := marks }).map fun a => a.1.holds) ∧
      (RuleCall.runAll s calls p).2.AlikeOn tree.HasCall { marks := marks } := by
  induction calls generalizing p with
  | nil => exact ⟨rfl, hp⟩
  | cons c calls ih =>
      have hrest : ∀ x ∈ calls, x.On tree := fun x hx => hon x (List.mem_cons_of_mem c hx)
      rcases RuleCall.run_steady s hd (hon c List.mem_cons_self) p _ hp with
        ⟨v, herr, herr'⟩ | ⟨a, m, a', m', ha, ha', hyes, hm⟩
      · obtain ⟨hanswers, hmarks⟩ := ih hrest hp
        rw [runAll_cons_error herr, List.map_cons, List.map_cons, hanswers, herr']
        exact ⟨rfl, hmarks⟩
      · obtain ⟨hanswers, hmarks⟩ := ih hrest (hm.trans hp)
        have hfresh : (c.run s).run { marks := marks } = .ok (a', m') := ha'
        rw [runAll_cons_ok ha, List.map_cons, List.map_cons, hanswers, hfresh]
        refine ⟨?_, hmarks⟩
        simp only [Except.map, hyes]

theorem askAll_steady {function : DelegableFunction} (hd : tree.Distinct)
    {blocks : List (Facet × List RuleCall)} {p : Pass}
    (hon : ∀ b ∈ blocks, ∀ c ∈ b.2, c.On tree)
    (hp : p.AlikeOn tree.HasCall { marks := marks }) :
    (askAll function facts blocks p).1.map (·.map RuleAnswer.holds) =
        (blocks.flatMap fun b => b.2.map fun c =>
          ((c.run ⟨function, facts, b.1⟩).run { marks := marks }).map fun a => a.1.holds) ∧
      (askAll function facts blocks p).2.AlikeOn tree.HasCall { marks := marks } := by
  induction blocks generalizing p with
  | nil => exact ⟨rfl, hp⟩
  | cons b blocks ih =>
      obtain ⟨facet, calls⟩ := b
      obtain ⟨hhere, hm⟩ := runAll_steady ⟨function, facts, facet⟩ hd
        (hon _ List.mem_cons_self) hp
      obtain ⟨hlater, hq⟩ := ih (fun b hb => hon b (List.mem_cons_of_mem _ hb)) hm
      refine ⟨?_, hq⟩
      rw [List.flatMap_cons, ← hhere, ← hlater]
      exact List.map_append

/-! ### Reports -/

theorem validate_steady (t : Tracker) (s : Scope) (op : Option Strategy) {session : Session}
    {root : Expr} (hd : tree.Distinct) (hroot : root ∈ tree.postorder)
    (hp : session.newPass.AlikeOn tree.HasCall { marks := marks }) :
    (∃ v, session.validate t s root op = .error v ∧
        ({ marks := marks } : Session).validate t s root op = .error v) ∨
      ∃ report after after', session.validate t s root op = .ok (report, after) ∧
        ({ marks := marks } : Session).validate t s root op = .ok (report, after') ∧
        after.newPass.AlikeOn tree.HasCall { marks := marks } := by
  by_cases hn : s.function.name = ""
  · exact Or.inl ⟨.unnamedFunction, by simp [validate, hn], by simp [validate, hn]⟩
  · obtain ⟨v, q, hv, hs⟩ := (Scope.settled_of_mem hroot).verdict op session.newPass
    have hres : (s.judge root).Respects tree.HasCall := Scope.judge_respects hroot
    obtain ⟨q', hv', hq⟩ := hres.verdict op v session.newPass { marks := marks } q ⟨rfl, hp⟩ hv
    have hstart : ((s.judge root).verdict op).Gives ({ marks := marks } : Session).newPass v q' :=
      hv'
    have hfresh := validate_eq (t := t) hn hstart
    rw [hq.rejections] at hfresh
    have hkept : q.AlikeOn tree.HasCall session.newPass := hs.alikeOn fun id => hd.not_hasCall
    exact Or.inr ⟨_, _, _, validate_eq hn hv, hfresh, hkept.trans hp⟩

/-! ### Runs -/

/-- **One task**: what is seen of it is what would be seen without the tasks before it,
and the marks of calls are as they were. -/
theorem perform_steady (facts : FactTable) (t : Tracker) {session : Session} {task : Task}
    (hd : tree.Distinct) (hon : task.On tree) (hp : session.newPass.AlikeOn tree.HasCall { marks := marks }) :
    (session.perform facts t task).1 = task.alone facts t marks ∧
      (session.perform facts t task).2.newPass.AlikeOn tree.HasCall { marks := marks } := by
  cases task with
  | validation function facet root op =>
      rcases validate_steady t ⟨function, facts, facet⟩ op hd hon hp with
        ⟨v, herr, herr'⟩ | ⟨report, after, after', hok, hok', hafter⟩
      · simp only [perform, Task.alone, herr, herr']
        exact ⟨rfl, hp⟩
      · simp only [perform, Task.alone, hok, hok']
        exact ⟨rfl, hafter⟩
  | pass function blocks =>
      obtain ⟨hanswers, hmarks⟩ := askAll_steady hd hon hp
      exact ⟨congrArg Seen.answers hanswers, hmarks⟩

/-- The tasks of a run leave the marks of calls as they were, so each of them starts
from the same marks of calls. -/
theorem run_steady (facts : FactTable) (t : Tracker) (hd : tree.Distinct) {tasks : List Task}
    {session : Session} (hon : ∀ task ∈ tasks, task.On tree)
    (hp : session.newPass.AlikeOn tree.HasCall { marks := marks }) :
    (run facts t tasks session).1 = tasks.map (Task.alone facts t marks) := by
  induction tasks generalizing session with
  | nil => rfl
  | cons task tasks ih =>
      obtain ⟨hseen, hnext⟩ := perform_steady facts t hd (hon task List.mem_cons_self) hp
      have hlater := ih (fun x hx => hon x (List.mem_cons_of_mem task hx)) hnext
      rw [List.map_cons, ← hseen, ← hlater]
      rfl

/-- **History independence**: over a formula whose nodes differ in identity, what is seen
of a run is what is seen of each of its tasks alone. -/
theorem run_eq_alone (facts : FactTable) (t : Tracker) (start : Session) (tasks : List Task)
    (hd : tree.Distinct) (hon : ∀ task ∈ tasks, task.On tree) :
    (run facts t tasks start).1 = tasks.map (Task.alone facts t start.marks) :=
  run_steady facts t hd hon fun _ _ => Iff.rfl

end

end Session

/-! ## A run that marks

The formula of the sample with an access to the row itself, which is exempt: every
validation marks the access, and the match is asked about afterwards. -/

namespace Sample

def access : Expr := .dotted 8 (.first 7 name) city

def marking : Expr := .binary 9 .and access formula

def markingFacts : FactTable :=
  ((facts.insert 7 { rowScoped := true, exempted := true, lambdaScoped := true }).insert 8
    { rowScoped := true }).insert 9 { rowScoped := true }

def tasks : List Session.Task :=
  [.validation .filter facet marking none,
   .pass .filter [(facet, [.node access none, .call 5 [.first 3 city, .literal 4 (.str "a")]]),
     ({}, [.node marking none])],
   .validation .sort facet formula none,
   .validation .filter facet marking none]

theorem tasks_on_marking : ∀ task ∈ tasks, task.On marking := by
  have hself : marking ∈ marking.postorder := Expr.self_mem_postorder marking
  have haccess : access ∈ marking.postorder :=
    Expr.mem_postorder_left (Expr.self_mem_postorder access)
  have hformula : formula ∈ marking.postorder :=
    Expr.mem_postorder_right (Expr.self_mem_postorder formula)
  have hmatch : ∃ head, .call 5 head [.first 3 city, .literal 4 (.str "a")] ∈ marking.postorder :=
    ⟨_, Expr.mem_postorder_trans (Expr.mem_postorder_right (Expr.self_mem_postorder _)) hformula⟩
  simp only [tasks, Session.Task.On, List.forall_mem_cons, List.not_mem_nil, false_implies,
    implies_true, and_true]
  exact ⟨hself, ⟨⟨haccess, hmatch⟩, hself⟩, hformula, hself⟩

theorem marking_run_eq_alone :
    marking.Distinct ∧ (∀ task ∈ tasks, task.On marking) ∧
      (Session.run markingFacts silent tasks {}).2.marks = [8] ∧
      (Session.run markingFacts silent tasks {}).1 =
        tasks.map (Session.Task.alone markingFacts silent []) := by
  have hd : marking.Distinct := by decide
  exact ⟨hd, tasks_on_marking, rfl,
    Session.run_eq_alone markingFacts silent {} tasks hd tasks_on_marking⟩

end Sample

end Delegability
