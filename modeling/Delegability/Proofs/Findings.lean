/-
# `Delegability.Proofs.Findings` — what a new pass finds

A pass notes two things: rejections, and references into entities that are not known.  A pass
that starts with nothing noted ends in one of three ways, whatever the formula:

    delegable                         nothing
    rejected r                        r
    rejected r, of an entity          the reference, and then r

Which of the last two it is can be seen from `r` itself: only a rejection of an entity has a
context that says so (`Context.Plain`).  The reference is noted apart from the rejection, by the
rule of the name or the access, and nothing else comes between the two; so the three lines above
are an invariant of the rules (`Check.Finds`), and `judge_finds` says that they hold of every
formula.
-/
import Delegability.Proofs.Outcome

namespace Delegability

/-! ## Contexts -/

namespace Context

variable {k : NodeKind} {x y : String}

/-- The context is not that of a reference into an unknown entity, at a node of the kind. -/
def Plain (k : NodeKind) (context : String) : Prop :=
  ∀ identity, context ≠ entityNotFound k true identity

theorem entityNotFound_inj (h : entityNotFound k true x = entityNotFound k true y) : x = y := by
  simpa [entityNotFound, ← String.toList_inj] using h

/-- Contexts of columns, functions and operators begin otherwise. -/
theorem plain_of_head (h : x.toList.head? ≠ some 'K') : Plain k x := by
  rintro identity rfl
  simp [entityNotFound, kind] at h

theorem plain_asyncOrImpure (isAsync isPure : Bool) : Plain k (asyncOrImpure k isAsync isPure) := by
  intro identity h
  simp [asyncOrImpure, entityNotFound, kind, ← String.toList_inj] at h

theorem plain_unresolvedName (name : String) : Plain k (unresolvedName k name) := by
  intro identity h
  simp [unresolvedName, entityNotFound, kind, ← String.toList_inj] at h

theorem plain_notConstant : Plain k (notConstant k) := by
  intro identity h
  simp [notConstant, entityNotFound, kind, ← String.toList_inj] at h

theorem plain_kind : Plain k (kind k true) := by
  intro identity h
  simp [entityNotFound, kind, ← String.toList_inj] at h

end Context

/-- The rejection says that the entity of this identity is not known. -/
def Rejection.IsOfEntity (r : Rejection) (identity : String) : Prop :=
  r.context = Context.entityNotFound r.kind true identity

/-- The identity of the entity that a name or an access refers to, if it is not known. -/
def Scope.missingEntity? (s : Scope) : Expr → Option String
  | .first id _ => (s.facts.name? id).bind NameInfo.unknownEntity?
  | .dotted _ left _ =>
      ((s.facts.type? left.id).bind ValueType.expansion?).bind fun x =>
        if x.entity?.isSome then none else some x.identity
  | _ => none

/-! ## Three ways to end -/

/-- What has been found once the verdict is reached, if nothing was before.  `E` holds the nodes
that refer into unknown entities. -/
inductive Verdict.Found (E : NodeId → NodeKind → String → Prop) : Verdict → List Finding → Prop where
  | nothing : Found E .delegable []
  | plain {r : Rejection} : Context.Plain r.kind r.context → Found E (.rejected r) [.rejection r]
  | entity {r : Rejection} {identity : String} : r.IsOfEntity identity →
      E r.node r.kind identity →
      Found E (.rejected r) [.unknownEntity identity, .rejection r]

section

variable {E : NodeId → NodeKind → String → Prop} {p m q : Pass} {r : Rejection} {v : Verdict}

theorem Verdict.Found.rejections {fs : List Finding} (h : v.Found E fs) :
    fs.filterMap Finding.rejection? = v.reason?.toList := by
  cases h <;> rfl

/-- The three ways in one: the reference, if the rejection is of an entity, and the rejection, if
there is one. -/
theorem Verdict.Found.missing {fs : List Finding} (h : v.Found E fs) :
    ∃ missing : Option String,
      fs = missing.toList.map .unknownEntity ++ v.reason?.toList.map .rejection ∧
      (∀ i, missing = some i ↔ ∃ r ∈ v.reason?.toList, r.IsOfEntity i) ∧
      ∀ i, missing = some i → ∃ r ∈ v.reason?.toList, E r.node r.kind i := by
  cases h with
  | nothing => exact ⟨none, rfl, by simp [reason?], by simp⟩
  | @plain r hplain =>
      refine ⟨none, rfl, fun i => ?_, by simp⟩
      constructor
      · intro hi
        cases hi
      · rintro ⟨r', hr', hi⟩
        obtain rfl := List.mem_singleton.mp hr'
        exact absurd hi (hplain i)
  | @entity r identity hentity hE =>
      refine ⟨some identity, rfl, fun i => ?_, fun i hi => ?_⟩
      · constructor
        · intro hi
          obtain rfl := Option.some.inj hi
          exact ⟨r, List.mem_singleton_self r, hentity⟩
        · rintro ⟨r', hr', hi⟩
          obtain rfl := List.mem_singleton.mp hr'
          exact congrArg some (Context.entityNotFound_inj (hentity.symm.trans hi))
      · obtain rfl := Option.some.inj hi
        exact ⟨r, List.mem_singleton_self r, hE⟩

theorem Verdict.Found.findings_of_delegable (h : Verdict.delegable.Found E q.findings) :
    q.findings = [] := by
  generalize q.findings = fs at h
  cases h
  rfl

theorem Pass.rejections_of_findings (h : p.findings = []) : p.rejections = [] := by
  rw [rejections, h]
  rfl

theorem Pass.findings_noteRejection (h : p.rejections = []) :
    (p.noteRejection r).findings = p.findings ++ [.rejection r] := by
  unfold noteRejection hasRejected
  rw [h]
  rfl

/-- Started with nothing found, the check ends in one of the three ways. -/
def Check.Finds (E : NodeId → NodeKind → String → Prop) (c : Check Verdict) : Prop :=
  ∀ p v q, p.findings = [] → c.Gives p v q → v.Found E q.findings

namespace Check

theorem finds_accept : accept.Finds E := by
  intro p v q hp h
  obtain ⟨rfl, rfl⟩ := gives_pure.mp h
  rw [hp]
  exact .nothing

theorem reject_gives (h : (reject r).Gives p v q) : v = .rejected r ∧ q = p.noteRejection r := by
  obtain ⟨_, m, hm, h⟩ := gives_bind.mp h
  obtain ⟨rfl, rfl⟩ := gives_pure.mp h
  exact ⟨rfl, (gives_modify.mp hm).symm⟩

theorem finds_reject (hr : Context.Plain r.kind r.context) : (reject r).Finds E := by
  intro p v q hp h
  obtain ⟨rfl, rfl⟩ := reject_gives h
  rw [Pass.findings_noteRejection (Pass.rejections_of_findings hp), hp]
  exact .plain hr

theorem Finds.andThen {first next : Check Verdict} (h₁ : first.Finds E) (h₂ : next.Finds E) :
    (andThen first next).Finds E := by
  intro p v q hp h
  obtain ⟨w, m, hw, h⟩ := gives_bind.mp h
  have hm := h₁ p w m hp hw
  cases w with
  | delegable => exact h₂ m v q hm.findings_of_delegable h
  | rejected r =>
      obtain ⟨rfl, rfl⟩ := gives_pure.mp h
      exact hm

theorem Finds.ite {c d : Check Verdict} {b : Prop} [Decidable b] (hc : c.Finds E)
    (hd : d.Finds E) : (if b then c else d).Finds E := by
  split
  · exact hc
  · exact hd

end Check

namespace Scope

variable {s : Scope} {id : NodeId} {k : NodeKind} {op : Option Strategy}

/-! ## Rules without nodes below -/

theorem finds_rejectPlainly {status : Status} {context : String} (h : Context.Plain k context) :
    (s.rejectPlainly id k status context).Finds E :=
  Check.finds_reject h

theorem finds_purity : (s.purity id k).Finds E :=
  .ite (finds_rejectPlainly (Context.plain_asyncOrImpure _ _)) Check.finds_accept

theorem finds_readiness : (s.readiness id k).Finds E :=
  finds_purity.andThen <| .ite Check.finds_accept <| .ite Check.finds_accept <|
    finds_rejectPlainly (Context.plain_asyncOrImpure _ _)

theorem finds_rejectEntity {identity : String} (h : E id k identity) :
    (s.rejectEntity id k identity).Finds E := by
  intro p v q hp hgives
  obtain ⟨_, m, hm, hgives⟩ := Check.gives_bind.mp hgives
  obtain rfl := Check.gives_modify.mp hm
  obtain ⟨rfl, rfl⟩ := Check.reject_gives hgives
  have hnone : (p.note (.unknownEntity identity)).rejections = [] := by
    rw [Pass.rejections_note_unknownEntity, Pass.rejections_of_findings hp]
  rw [Pass.findings_noteRejection hnone, Pass.note, hp]
  exact .entity rfl h

theorem finds_rejectColumn {column : String} : (s.rejectColumn id k column).Finds E :=
  Check.finds_reject (Context.plain_of_head (by simp [Context.column]))

theorem finds_supportRule {f : Facet} {path : ColumnPath} {required : CapabilitySet} :
    (s.supportRule id k f path required op).Finds E := by
  refine .ite ?_ finds_rejectColumn
  cases op with
  | none => exact Check.finds_accept
  | some op =>
      refine .ite Check.finds_accept (Check.finds_reject (Context.plain_of_head ?_))
      simp [Context.columnOperator, Context.column]

theorem finds_columnRule {name : Name} {required : CapabilitySet}
    (h : ∀ i, s.missingEntity? (.first id name) = some i → E id .firstName i) :
    (s.columnRule id name op required).Finds E := by
  refine .ite (fun _ _ _ _ hthrow => absurd hthrow Check.not_gives_throw) ?_
  split
  next => exact finds_rejectPlainly (Context.plain_unresolvedName _)
  next info hinfo =>
    split
    next _ identity hi =>
      refine finds_rejectEntity (h identity ?_)
      rw [missingEntity?, hinfo]
      exact hi
    next => exact Check.finds_accept
    next => exact finds_supportRule

theorem finds_resolvedAccess {left : Expr} {right : Name}
    (h : ∀ i, s.missingEntity? (.dotted id left right) = some i → E id .dottedName i) :
    (s.resolvedAccess id left right op).Finds E := by
  refine .ite Check.finds_accept ?_
  split
  next =>
    split
    · exact finds_rejectColumn
    · exact finds_supportRule
  next x hx =>
    split
    next he =>
      refine finds_rejectEntity (h x.identity ?_)
      rw [missingEntity?, hx]
      simp [he]
    next => exact finds_supportRule

/-! ## Rules with nodes below -/

/-- A node from above ends in one of the three ways, under every operator and as a left side. -/
structure Reading.Finds (E : NodeId → NodeKind → String → Prop) (r : Reading) : Prop where
  verdict : ∀ op, (r.verdict op).Finds E
  shape : ∀ p sh q, p.findings = [] → r.shape.Gives p sh q → sh.verdict.Found E q.findings

theorem finds_accessRule {left : Expr} {right : Name} {shape : Check Shape}
    (h : ∀ i, s.missingEntity? (.dotted id left right) = some i → E id .dottedName i)
    (hshape : ∀ p sh q, p.findings = [] → shape.Gives p sh q → sh.verdict.Found E q.findings) :
    (s.accessRule id left right shape op).Finds E := by
  refine finds_purity.andThen ?_
  intro p v q hp hgives
  obtain ⟨sh, m, hm, hgives⟩ := Check.gives_bind.mp hgives
  have hsh := hshape p sh m hp hm
  cases sh with
  | exempted =>
      obtain ⟨_, _, hmark, hacc⟩ := Check.gives_bind.mp hgives
      obtain rfl := Check.gives_modify.mp hmark
      refine Check.finds_accept _ v q ?_ hacc
      rw [Pass.findings_mark, hsh.findings_of_delegable]
  | rejected r =>
      obtain ⟨rfl, rfl⟩ := Check.gives_pure.mp hgives
      exact hsh
  | unsupported =>
      exact finds_rejectPlainly Context.plain_kind m v q hsh.findings_of_delegable hgives
  | resolvable => exact finds_resolvedAccess h m v q hsh.findings_of_delegable hgives

/-- The hook of a match has found nothing; or it answers no, and what it has found is the
rejection of an argument. -/
theorem serverSide_finds {f : DelegableFunction} {args : List Reading} {b : Bool}
    (h : ∀ r ∈ args, r.Finds E) (hp : p.findings = []) (hb : (s.serverSide f args).Gives p b q) :
    q.findings = [] ∨ b = false ∧ ∃ r, (Verdict.rejected r).Found E q.findings := by
  unfold serverSide at hb
  split at hb
  next c column pattern hc =>
    split at hb
    next =>
      obtain ⟨-, rfl⟩ := Check.gives_pure.mp hb
      exact Or.inl hp
    next =>
      obtain ⟨v, m, hv, hb⟩ := Check.gives_bind.mp hb
      have hcol := (h column (by simp)).verdict _ p v m hp hv
      cases v with
      | rejected r =>
          obtain ⟨rfl, rfl⟩ := Check.gives_pure.mp hb
          exact Or.inr ⟨rfl, r, hcol⟩
      | delegable =>
          have hm := hcol.findings_of_delegable
          by_cases hrow : s.facts.isRowScoped pattern.id = true
          · rw [if_pos hrow] at hb
            obtain ⟨-, rfl⟩ := Check.gives_pure.mp hb
            exact Or.inl hm
          · rw [if_neg hrow] at hb
            obtain ⟨w, m', hw, hb⟩ := Check.gives_bind.mp hb
            obtain ⟨rfl, rfl⟩ := Check.gives_pure.mp hb
            have hpat := (h pattern (by simp)).verdict _ m w m' hm hw
            cases w with
            | delegable => exact Or.inl hpat.findings_of_delegable
            | rejected r => exact Or.inr ⟨rfl, r, hpat⟩
  next =>
    obtain ⟨-, rfl⟩ := Check.gives_pure.mp hb
    exact Or.inl hp

theorem finds_rowCallRule {args : List Reading} (h : ∀ r ∈ args, r.Finds E) :
    (s.rowCallRule id args).Finds E := by
  have hself : ∀ name, (s.rejectPlainly id .call .undelegatableFunction
      (Context.function name)).Finds E := fun name =>
    finds_rejectPlainly (Context.plain_of_head (by simp [Context.function]))
  cases hf : s.facts.callee? id with
  | none =>
      unfold rowCallRule
      rw [hf]
      exact hself none
  | some f =>
      intro p v q hp hgives
      -- the reason is looked for where the pass had come to, which is its very start
      rw [rowCallRule_gives hf, Pass.rejections_of_findings hp] at hgives
      rcases hgives with ⟨hyes, rfl⟩ | ⟨m, hno, hgives⟩
      · rcases serverSide_finds h hp hyes with hq | ⟨hb, -⟩
        · rw [hq]
          exact .nothing
        · cases hb
      · rcases serverSide_finds h hp hno with hm | ⟨-, r, hr⟩
        · rcases hgives with ⟨r, hget, -⟩ | ⟨-, hgives⟩
          · rw [Pass.rejections_of_findings hm] at hget
            cases hget
          · exact hself (some f.name) m v q hm hgives
        · have hone : m.rejections = [r] := hr.rejections
          rw [hone] at hgives
          rcases hgives with ⟨r', hget, rfl, rfl⟩ | ⟨hget, -⟩
          · obtain rfl := Option.some.inj hget
            exact hr
          · cases hget

theorem finds_genericCall {args : List Reading} {allowVarying : Bool}
    (h : ∀ r ∈ args, r.Finds E) : (s.genericCall id args allowVarying).Finds E := by
  refine finds_readiness.andThen (.ite Check.finds_accept ?_)
  intro p v q hp hgives
  obtain ⟨_, _, hget, hgives⟩ := Check.gives_bind.mp hgives
  obtain ⟨rfl, rfl⟩ := Check.gives_get.mp hget
  exact Check.Finds.ite (finds_rejectPlainly Context.plain_notConstant) (finds_rowCallRule h)
    p v q hp hgives

theorem finds_callRule {args : List Reading} (h : ∀ r ∈ args, r.Finds E) :
    (s.callRule id args).Finds E := by
  unfold callRule
  split
  · exact Check.finds_accept
  · refine .ite (Check.finds_reject (Context.plain_of_head ?_)) ?_
    · simp [Context.castUnsupported]
    · cases args with
      | nil =>
          refine finds_rejectPlainly (Context.plain_of_head ?_)
          simp [Context.castMissing]
      | cons source rest => exact (h source List.mem_cons_self).verdict none
  · exact finds_genericCall h

theorem finds_rejectOperator {text : String} : (s.rejectOperator id k text).Finds E :=
  Check.finds_reject (Context.plain_of_head (by simp [Context.operatorUnsupported]))

theorem finds_binaryRule {o : BinaryOp} {left right : Reading} (hl : left.Finds E)
    (hr : right.Finds E) : (s.binaryRule id o left right).Finds E := by
  unfold binaryRule
  rw [operandStrategies_eq]
  refine finds_purity.andThen (.ite finds_rejectOperator (.ite ?_ ?_))
  · exact finds_rejectPlainly (Context.plain_of_head (by simp [Context.bothRowScoped]))
  · exact (hl.verdict _).andThen (hr.verdict _)

theorem finds_unaryRule {o : UnaryOp} {operand : Reading} (h : operand.Finds E) :
    (s.unaryRule id o operand).Finds E :=
  finds_purity.andThen (.ite finds_rejectOperator (h.verdict _))

/-! ## Every formula -/

/-- Every sub-expression of a formula ends in one of the three ways, as long as `E` holds what
the formula refers to in vain. -/
theorem judge_finds {tree e : Expr}
    (hE : ∀ x ∈ tree.postorder, ∀ i, s.missingEntity? x = some i → E x.id x.kind i) :
    e ∈ tree.postorder → (s.judge e).Finds E := by
  -- only a call and an access have a shape that is more than a constant
  have hconst : ∀ sh : Shape, sh.verdict = .delegable → ∀ p sh' q, p.findings = [] →
      (pure sh : Check Shape).Gives p sh' q → sh'.verdict.Found E q.findings := by
    intro sh hsh p sh' q hp h
    obtain ⟨rfl, rfl⟩ := Check.gives_pure.mp h
    rw [hsh, hp]
    exact .nothing
  induction e using Expr.ind with
  | call id head args ih =>
      intro he
      have hcall : (s.callRule id (s.judgeArgs args)).Finds E :=
        finds_callRule (forall_mem_judgeArgs fun a ha => ih a ha (Expr.mem_of_arg he ha))
      refine ⟨fun _ => hcall, fun p sh q hp h => ?_⟩
      obtain ⟨v, m, hv, h⟩ := Check.gives_bind.mp h
      have hfound := hcall p v m hp hv
      cases v with
      | delegable =>
          obtain ⟨rfl, rfl⟩ := Check.gives_pure.mp h
          exact hfound
      | rejected r =>
          obtain ⟨rfl, rfl⟩ := Check.gives_pure.mp h
          exact hfound
  | dotted id left right ih =>
      intro he
      have hleft := (ih (Expr.mem_of_dotted he)).shape
      refine ⟨fun op => ?_, hleft⟩
      exact .ite (finds_accessRule (hE _ he) hleft) (.ite Check.finds_accept finds_readiness)
  | first id name =>
      intro he
      refine ⟨fun op => ?_, hconst _ ?_⟩
      · exact finds_readiness.andThen (.ite (finds_columnRule (hE _ he)) Check.finds_accept)
      · split <;> rfl
  | binary id o left right ihl ihr =>
      intro he
      have hrule : (s.binaryRule id o (s.judge left) (s.judge right)).Finds E :=
        finds_binaryRule (ihl (Expr.mem_of_left he)) (ihr (Expr.mem_of_right he))
      exact ⟨fun _ => .ite hrule finds_readiness, hconst .unsupported rfl⟩
  | unary id o operand ih =>
      intro he
      have hrule : (s.unaryRule id o (s.judge operand)).Finds E :=
        finds_unaryRule (ih (Expr.mem_of_operand he))
      exact ⟨fun _ => .ite hrule finds_readiness, hconst .unsupported rfl⟩
  | literal id value =>
      intro _
      exact ⟨fun _ => Check.finds_accept, hconst .unsupported rfl⟩
  | other id description =>
      intro _
      have hrule : (s.otherRule id).Finds E :=
        finds_purity.andThen (finds_rejectPlainly Context.plain_kind)
      exact ⟨fun _ => .ite hrule finds_readiness, hconst .unsupported rfl⟩

end Scope

end

end Delegability
