/-
# `Delegability.Proofs.Outcome` — how a rule ends

Whatever the state of the pass, a rule that is reached ends in a verdict and does
three things at most:

* it notes the rejection it ends in, unless that node has been rejected before;
  a rule that accepts notes none (`Step.rejections`);
* that rejection is of a node of the formula (`Step.node`);
* it adds marks, and only where the formula has an access that starts at an
  exempt name (`Step.kept`, `Step.marked`).

`Settles` says this of a check, and `judge_settled` of every formula; a rule that accepts
finds nothing at all (`judge_silent`).  Nodes may share identities throughout.  The
delicate rule is that of calls which the source may evaluate: the hook gives a Boolean
only, and the reason is read off what was noted meanwhile (`serverSide_settles`,
`settles_rowCallRule`).
-/
import Delegability.Proofs.Acceptance

namespace Delegability

/-! ## What a pass has noted -/

namespace Pass

@[simp]
theorem rejections_note_unknownEntity (p : Pass) (identity : String) :
    (p.note (.unknownEntity identity)).rejections = p.rejections := by
  simp [rejections, note, Finding.rejection?]

@[simp]
theorem rejections_note_rejection (p : Pass) (r : Rejection) :
    (p.note (.rejection r)).rejections = p.rejections ++ [r] := by
  simp [rejections, note, Finding.rejection?]

@[simp]
theorem marks_noteRejection (p : Pass) (r : Rejection) : (p.noteRejection r).marks = p.marks := by
  unfold noteRejection
  split <;> rfl

@[simp]
theorem findings_mark (p : Pass) (id : NodeId) : (p.mark id).findings = p.findings := by
  unfold mark
  split <;> rfl

@[simp]
theorem rejections_mark (p : Pass) (id : NodeId) : (p.mark id).rejections = p.rejections := by
  simp [rejections]

theorem mem_marks_mark {p : Pass} {id x : NodeId} :
    x ∈ (p.mark id).marks ↔ x ∈ p.marks ∨ x = id := by
  unfold mark
  split
  next h =>
    constructor
    · exact Or.inl
    · rintro (hx | rfl)
      · exact hx
      · simpa using h
  next => simp

end Pass

/-- What has been noted once a verdict is reached. -/
def Verdict.addTo (v : Verdict) (rs : List Rejection) : List Rejection :=
  match v with
  | .delegable => rs
  | .rejected r => if rs.any fun x => x.node = r.node then rs else rs ++ [r]

theorem Pass.rejections_noteRejection (p : Pass) (r : Rejection) :
    (p.noteRejection r).rejections = (Verdict.rejected r).addTo p.rejections := by
  unfold noteRejection hasRejected Verdict.addTo
  by_cases h : (p.rejections.any fun x => x.node = r.node) = true
  · simp [h]
  · simp [h]

/-! ## Steps -/

/-- From `p` to `q` with the verdict `v`: a rejection is of a node in `N`, and marks
are added in `M` only. -/
structure Step (N : NodeId → NodeKind → Prop) (M : NodeId → Prop) (p : Pass) (v : Verdict)
    (q : Pass) : Prop where
  rejections : q.rejections = v.addTo p.rejections
  node : ∀ r, v = .rejected r → N r.node r.kind
  kept : ∀ id ∈ p.marks, id ∈ q.marks
  marked : ∀ id ∈ q.marks, id ∈ p.marks ∨ M id

section

variable {N : NodeId → NodeKind → Prop} {M : NodeId → Prop} {p m q : Pass} {v : Verdict}

theorem Step.refl : Step N M p .delegable p :=
  ⟨rfl, fun _ h => Verdict.noConfusion h, fun _ h => h, fun _ h => Or.inl h⟩

/-- After a step that noted nothing, whatever its verdict, another counts alone. -/
theorem Step.trans_of_silent {w : Verdict} (h₁ : Step N M p w m)
    (hm : m.rejections = p.rejections) (h₂ : Step N M m v q) : Step N M p v q where
  rejections := by rw [h₂.rejections, hm]
  node := h₂.node
  kept := fun id hid => h₂.kept id (h₁.kept id hid)
  marked := by
    intro id hid
    rcases h₂.marked id hid with h | h
    · exact h₁.marked id h
    · exact Or.inr h

theorem Step.trans (h₁ : Step N M p .delegable m) (h₂ : Step N M m v q) : Step N M p v q :=
  h₁.trans_of_silent h₁.rejections h₂

/-- Whatever is in `p`, the check ends in a verdict by a step. -/
def Check.Settles (N : NodeId → NodeKind → Prop) (M : NodeId → Prop) (c : Check Verdict) : Prop :=
  ∀ p, ∃ v q, c.Gives p v q ∧ Step N M p v q

namespace Check

theorem settles_accept : accept.Settles N M :=
  fun p => ⟨.delegable, p, gives_pure.mpr ⟨rfl, rfl⟩, .refl⟩

theorem settles_reject {r : Rejection} (h : N r.node r.kind) : (reject r).Settles N M := by
  intro p
  refine ⟨.rejected r, p.noteRejection r, ?_, ?_⟩
  · exact gives_bind.mpr ⟨(), _, gives_modify.mpr rfl, gives_pure.mpr ⟨rfl, rfl⟩⟩
  · refine ⟨p.rejections_noteRejection r, ?_, ?_, ?_⟩
    · rintro _ ⟨⟩
      exact h
    · intro id hid
      rwa [Pass.marks_noteRejection]
    · intro id hid
      rw [Pass.marks_noteRejection] at hid
      exact Or.inl hid

theorem Settles.andThen {first next : Check Verdict} (h₁ : first.Settles N M)
    (h₂ : next.Settles N M) : (andThen first next).Settles N M := by
  intro p
  obtain ⟨v, m, hv, hs⟩ := h₁ p
  cases v with
  | delegable =>
      obtain ⟨w, q, hw, hs'⟩ := h₂ m
      exact ⟨w, q, gives_bind.mpr ⟨.delegable, m, hv, hw⟩, hs.trans hs'⟩
  | rejected r =>
      exact ⟨.rejected r, m, gives_bind.mpr ⟨_, m, hv, gives_pure.mpr ⟨rfl, rfl⟩⟩, hs⟩

theorem Settles.ite {c d : Check Verdict} {b : Prop} [Decidable b] (hc : b → c.Settles N M)
    (hd : ¬ b → d.Settles N M) : (if b then c else d).Settles N M := by
  by_cases hb : b
  · rw [if_pos hb]
    exact hc hb
  · rw [if_neg hb]
    exact hd hb

end Check

namespace Scope

variable {s : Scope} {id : NodeId} {k : NodeKind}

/-! ## Rules without nodes below -/

theorem settles_rejectPlainly {status : Status} {context : String} (h : N id k) :
    (s.rejectPlainly id k status context).Settles N M :=
  Check.settles_reject h

theorem settles_purity (h : N id k) : (s.purity id k).Settles N M :=
  .ite (fun _ => settles_rejectPlainly h) (fun _ => Check.settles_accept)

theorem settles_readiness (h : N id k) : (s.readiness id k).Settles N M :=
  (settles_purity h).andThen <| .ite (fun _ => Check.settles_accept) fun _ =>
    .ite (fun _ => Check.settles_accept) (fun _ => settles_rejectPlainly h)

theorem settles_rejectColumn {column : String} (h : N id k) :
    (s.rejectColumn id k column).Settles N M :=
  Check.settles_reject h

theorem settles_rejectEntity {identity : String} (h : N id k) :
    (s.rejectEntity id k identity).Settles N M := by
  intro p
  have hplain : (s.rejectPlainly id k .other (Context.entityNotFound k true identity)).Settles N M :=
    settles_rejectPlainly h
  obtain ⟨v, q, hv, hs⟩ := hplain (p.note (.unknownEntity identity))
  refine ⟨v, q, Check.gives_bind.mpr ⟨(), _, Check.gives_modify.mpr rfl, hv⟩, ?_⟩
  exact ⟨by rw [hs.rejections, Pass.rejections_note_unknownEntity], hs.node, hs.kept, hs.marked⟩

theorem settles_supportRule {f : Facet} {path : ColumnPath} {required : CapabilitySet}
    {op : Option Strategy} (h : N id k) :
    (s.supportRule id k f path required op).Settles N M := by
  refine .ite (fun _ => ?_) (fun _ => settles_rejectColumn h)
  cases op with
  | none => exact Check.settles_accept
  | some op => exact .ite (fun _ => Check.settles_accept) (fun _ => Check.settles_reject h)

theorem settles_columnRule {name : Name} {op : Option Strategy} {required : CapabilitySet}
    (hr : s.facts.isRowScoped id = true) (h : N id .firstName) :
    (s.columnRule id name op required).Settles N M := by
  unfold columnRule
  simp only [hr, Bool.not_true, Bool.false_eq_true, if_false]
  split
  · exact settles_rejectPlainly h
  · split
    · exact settles_rejectEntity h
    · exact Check.settles_accept
    · exact settles_supportRule h

theorem settles_firstRule {name : Name} {op : Option Strategy} (h : N id .firstName) :
    (s.firstRule id name op).Settles N M :=
  (settles_readiness h).andThen <|
    .ite (fun hr => settles_columnRule hr h) (fun _ => Check.settles_accept)

theorem settles_resolvedAccess {left : Expr} {right : Name} {op : Option Strategy}
    (h : N id .dottedName) : (s.resolvedAccess id left right op).Settles N M := by
  refine .ite (fun _ => Check.settles_accept) (fun _ => ?_)
  split
  · split
    · exact settles_rejectColumn h
    · exact settles_supportRule h
  · split
    · exact settles_rejectEntity h
    · exact settles_supportRule h

theorem settles_otherRule (h : N id .other) : (s.otherRule id).Settles N M :=
  (settles_purity h).andThen (settles_rejectPlainly h)

theorem settles_rowRule {rule : Check Verdict} (h : N id k)
    (hrule : s.facts.isRowScoped id = true → rule.Settles N M) :
    (s.rowRule id k rule).Settles N M :=
  .ite hrule (fun _ => settles_readiness h)

/-! ## Rules with nodes below -/

/-- The verdict that a shape stands for. -/
def Shape.verdict : Shape → Verdict
  | .rejected r => .rejected r
  | .exempted | .resolvable | .unsupported => .delegable

/-- A node settles from above, under every operator and as a left side. -/
structure Reading.Settled (N : NodeId → NodeKind → Prop) (M : NodeId → Prop) (r : Reading) :
    Prop where
  verdict : ∀ op, (r.verdict op).Settles N M
  shape : ∀ p, ∃ sh q, r.shape.Gives p sh q ∧ Step N M p sh.verdict q

theorem settles_accessRule {left : Expr} {right : Name} {shape : Check Shape}
    {op : Option Strategy} (h : N id .dottedName)
    (hsh : ∀ p, ∃ sh q, shape.Gives p sh q ∧ Step N M p sh.verdict q)
    (hx : ∀ p q, shape.Gives p .exempted q → M id) :
    (s.accessRule id left right shape op).Settles N M := by
  refine (settles_purity h).andThen ?_
  intro p
  obtain ⟨sh, m, hm, hs⟩ := hsh p
  cases sh with
  | exempted =>
      refine ⟨.delegable, m.mark id, ?_, ?_⟩
      · exact Check.gives_bind.mpr ⟨_, m, hm, Check.gives_bind.mpr
          ⟨(), _, Check.gives_modify.mpr rfl, Check.gives_pure.mpr ⟨rfl, rfl⟩⟩⟩
      · refine hs.trans ⟨Pass.rejections_mark m id, fun _ h => Verdict.noConfusion h, ?_, ?_⟩
        · exact fun x hmx => Pass.mem_marks_mark.mpr (Or.inl hmx)
        · intro x hmx
          rcases Pass.mem_marks_mark.mp hmx with hmx | rfl
          · exact Or.inl hmx
          · exact Or.inr (hx p m hm)
  | resolvable =>
      obtain ⟨v, q, hv, hs'⟩ := settles_resolvedAccess h m
      exact ⟨v, q, Check.gives_bind.mpr ⟨_, m, hm, hv⟩, hs.trans hs'⟩
  | unsupported =>
      obtain ⟨v, q, hv, hs'⟩ := settles_rejectPlainly h m
      exact ⟨v, q, Check.gives_bind.mpr ⟨_, m, hm, hv⟩, hs.trans hs'⟩
  | rejected r =>
      exact ⟨.rejected r, m,
        Check.gives_bind.mpr ⟨_, m, hm, Check.gives_pure.mpr ⟨rfl, rfl⟩⟩, hs⟩

/-- The hook of a match answers.  If it answers no, either nothing was noted or the
rejection of an argument, and at most one. -/
theorem serverSide_settles {f : DelegableFunction} {args : List Reading}
    (h : ∀ r ∈ args, r.Settled N M) (p : Pass) :
    ∃ b q, (s.serverSide f args).Gives p b q ∧
      (Step N M p .delegable q ∨
        (b = false ∧ ∃ r, Step N M p (.rejected r) q)) := by
  unfold serverSide
  split
  next c column pattern hc =>
    split
    · exact ⟨false, p, Check.gives_pure.mpr ⟨rfl, rfl⟩, Or.inl .refl⟩
    · obtain ⟨v, m, hv, hs⟩ :=
        (h column (by simp)).verdict (some (.stringMatch (.single c))) p
      cases v with
      | rejected r =>
          exact ⟨false, m, Check.gives_bind.mpr ⟨_, m, hv, Check.gives_pure.mpr ⟨rfl, rfl⟩⟩,
            Or.inr ⟨rfl, r, hs⟩⟩
      | delegable =>
          cases hr : s.facts.isRowScoped pattern.id with
          | true =>
              refine ⟨false, m, Check.gives_bind.mpr ⟨_, m, hv, ?_⟩, Or.inl hs⟩
              simp
          | false =>
              obtain ⟨w, q, hw, hs'⟩ := (h pattern (by simp)).verdict none m
              refine ⟨w.isDelegable, q, Check.gives_bind.mpr ⟨_, m, hv, ?_⟩, ?_⟩
              · exact Check.gives_bind.mpr ⟨w, q, hw, Check.gives_pure.mpr ⟨rfl, rfl⟩⟩
              · cases w with
                | delegable => exact Or.inl (hs.trans hs')
                | rejected r => exact Or.inr ⟨rfl, r, hs.trans hs'⟩
  next => exact ⟨false, p, Check.gives_pure.mpr ⟨rfl, rfl⟩, Or.inl .refl⟩

theorem settles_rowCallRule {args : List Reading} (h : N id .call)
    (hargs : ∀ r ∈ args, r.Settled N M) : (s.rowCallRule id args).Settles N M := by
  cases hf : s.facts.callee? id with
  | none =>
      unfold rowCallRule
      rw [hf]
      exact settles_rejectPlainly h
  | some f =>
      intro p
      obtain ⟨b, m, hb, hs⟩ := serverSide_settles hargs p
      cases b with
      | true =>
          rcases hs with hs | ⟨hb', -⟩
          · exact ⟨.delegable, m, (rowCallRule_gives hf).mpr (Or.inl ⟨hb, rfl⟩), hs⟩
          · cases hb'
      | false =>
          -- the rejection of an argument is the reason if it was noted just now
          by_cases hm : m.rejections = p.rejections
          · have hself : (s.rejectPlainly id .call .undelegatableFunction
                (Context.function (some f.name))).Settles N M := settles_rejectPlainly h
            obtain ⟨v, q, hv, hs'⟩ := hself m
            refine ⟨v, q, (rowCallRule_gives hf).mpr (Or.inr ⟨m, hb, Or.inr ⟨?_, hv⟩⟩), ?_⟩
            · rw [hm]
              exact List.getElem?_eq_none (Nat.le_refl _)
            · rcases hs with hs | ⟨-, r, hs⟩
              · exact hs.trans hs'
              · exact hs.trans_of_silent hm hs'
          · rcases hs with hs | ⟨-, r, hs⟩
            · exact absurd hs.rejections hm
            · have hnew : m.rejections = p.rejections ++ [r] := by
                have hadd := hs.rejections
                simp only [Verdict.addTo] at hadd
                split at hadd
                · exact absurd hadd hm
                · exact hadd
              refine ⟨.rejected r, m, (rowCallRule_gives hf).mpr
                (Or.inr ⟨m, hb, Or.inl ⟨r, ?_, rfl, rfl⟩⟩), hs⟩
              rw [hnew, List.getElem?_append_right (Nat.le_refl _), Nat.sub_self]
              rfl

theorem settles_genericCall {args : List Reading} {allowVarying : Bool} (h : N id .call)
    (hargs : ∀ r ∈ args, r.Settled N M) : (s.genericCall id args allowVarying).Settles N M := by
  refine (settles_readiness h).andThen (.ite (fun _ => Check.settles_accept) fun _ => ?_)
  intro p
  have hrest : (if (!allowVarying && !s.isConstant p id) = true then
      s.rejectPlainly id .call .other (Context.notConstant .call)
      else s.rowCallRule id args).Settles N M :=
    .ite (fun _ => settles_rejectPlainly h) (fun _ => settles_rowCallRule h hargs)
  obtain ⟨v, q, hv, hs⟩ := hrest p
  exact ⟨v, q, Check.gives_bind.mpr ⟨p, p, Check.gives_get.mpr ⟨rfl, rfl⟩, hv⟩, hs⟩

theorem settles_callRule {args : List Reading} (h : N id .call)
    (hargs : ∀ r ∈ args, r.Settled N M) : (s.callRule id args).Settles N M := by
  unfold callRule
  split
  · exact Check.settles_accept
  · refine .ite (fun _ => Check.settles_reject h) (fun _ => ?_)
    cases args with
    | nil => exact settles_rejectPlainly h
    | cons source rest => exact (hargs source List.mem_cons_self).verdict none
  · exact settles_genericCall h hargs

theorem settles_binaryRule {op : BinaryOp} {left right : Reading} (h : N id .binaryOp)
    (hl : left.Settled N M) (hr : right.Settled N M) :
    (s.binaryRule id op left right).Settles N M := by
  unfold binaryRule
  rw [operandStrategies_eq]
  refine (settles_purity h).andThen (.ite (fun _ => Check.settles_reject h) fun _ => ?_)
  refine .ite (fun _ => settles_rejectPlainly h) fun _ => ?_
  exact (hl.verdict _).andThen (hr.verdict _)

theorem settles_unaryRule {op : UnaryOp} {operand : Reading} (h : N id .unaryOp)
    (ho : operand.Settled N M) : (s.unaryRule id op operand).Settles N M :=
  (settles_purity h).andThen <| .ite (fun _ => Check.settles_reject h) (fun _ => ho.verdict _)

/-! ## Every formula -/

/-- The node is an access that depends on the row and starts at an exempt name. -/
def MayMark (s : Scope) (e : Expr) (id : NodeId) : Prop :=
  ∃ left right, .dotted id left right ∈ e.postorder ∧ s.facts.isRowScoped id = true ∧
    s.ExemptSpine left

/-- Every sub-expression of a formula settles, as long as `N` holds the nodes of the
formula and `M` what it may mark. -/
theorem judge_settled {tree e : Expr} (hN : ∀ x ∈ tree.postorder, N x.id x.kind)
    (hM : ∀ id, s.MayMark tree id → M id) : e ∈ tree.postorder → (s.judge e).Settled N M := by
  induction e using Expr.ind with
  | call id head args ih =>
      intro he
      have hid : N id .call := hN _ he
      have hargs : ∀ r ∈ s.judgeArgs args, r.Settled N M :=
        forall_mem_judgeArgs fun a ha => ih a ha (Expr.mem_of_arg he ha)
      refine ⟨fun _ => settles_callRule hid hargs, fun p => ?_⟩
      obtain ⟨v, q, hv, hs⟩ := settles_callRule hid hargs p
      cases v with
      | delegable =>
          exact ⟨.resolvable, q,
            Check.gives_bind.mpr ⟨_, q, hv, Check.gives_pure.mpr ⟨rfl, rfl⟩⟩, hs⟩
      | rejected r =>
          exact ⟨.rejected r, q,
            Check.gives_bind.mpr ⟨_, q, hv, Check.gives_pure.mpr ⟨rfl, rfl⟩⟩, hs⟩
  | dotted id left right ih =>
      intro he
      have hid : N id .dottedName := hN _ he
      have hleft : (s.judge left).Settled N M := ih (Expr.mem_of_dotted he)
      refine ⟨fun op => .ite (fun hrow => ?_) fun _ => .ite (fun _ => Check.settles_accept)
        fun _ => settles_readiness hid, hleft.shape⟩
      refine settles_accessRule hid hleft.shape fun p q hex => ?_
      exact hM id ⟨left, right, he, hrow, (shape_gives_exempted.mp hex).1⟩
  | first id name =>
      intro he
      refine ⟨fun op => settles_firstRule (hN _ he), fun p => ?_⟩
      refine ⟨_, p, Check.gives_pure.mpr ⟨rfl, rfl⟩, ?_⟩
      split <;> exact .refl
  | binary id op left right ihl ihr =>
      intro he
      have hid : N id .binaryOp := hN _ he
      have hl : (s.judge left).Settled N M := ihl (Expr.mem_of_left he)
      have hr : (s.judge right).Settled N M := ihr (Expr.mem_of_right he)
      exact ⟨fun _ => settles_rowRule hid fun _ => settles_binaryRule hid hl hr,
        fun p => ⟨.unsupported, p, Check.gives_pure.mpr ⟨rfl, rfl⟩, .refl⟩⟩
  | unary id op operand ih =>
      intro he
      have hid : N id .unaryOp := hN _ he
      have ho : (s.judge operand).Settled N M := ih (Expr.mem_of_operand he)
      exact ⟨fun _ => settles_rowRule hid fun _ => settles_unaryRule hid ho,
        fun p => ⟨.unsupported, p, Check.gives_pure.mpr ⟨rfl, rfl⟩, .refl⟩⟩
  | literal id value =>
      intro _
      exact ⟨fun _ => Check.settles_accept,
        fun p => ⟨.unsupported, p, Check.gives_pure.mpr ⟨rfl, rfl⟩, .refl⟩⟩
  | other id description =>
      intro he
      have hid : N id .other := hN _ he
      exact ⟨fun _ => settles_rowRule hid fun _ => settles_otherRule hid,
        fun p => ⟨.unsupported, p, Check.gives_pure.mpr ⟨rfl, rfl⟩, .refl⟩⟩

/-! ## Accepting finds nothing

A check that accepts leaves the findings as they were.  `Step` says this of the rejections
only; the references into unknown entities, which a pass notes as well, are always followed
by a rejection. -/

/-- A node from above finds nothing as long as nothing stands against it. -/
structure Reading.Silent (r : Reading) : Prop where
  verdict : ∀ op p q, (r.verdict op).Accepts p q → q.findings = p.findings
  shape : ∀ p q, r.shape.Gives p .resolvable q → q.findings = p.findings

theorem serverSide_silent {f : DelegableFunction} {args : List Reading}
    (h : ∀ r ∈ args, r.Silent) (hyes : (s.serverSide f args).Gives p true q) :
    q.findings = p.findings := by
  obtain ⟨c, column, pattern, m, -, rfl, -, hcol, -, hpat⟩ := serverSide_gives_true.mp hyes
  have hm : m.findings = p.findings := (h column (by simp)).verdict _ p m hcol
  have hq : q.findings = m.findings := (h pattern (by simp)).verdict _ m q hpat
  exact hq.trans hm

theorem callRule_silent {args : List Reading} (h : ∀ r ∈ args, r.Silent)
    (hacc : (s.callRule id args).Accepts p q) : q.findings = p.findings := by
  by_cases hu : s.facts.callee? id = some .user
  · rw [(callRule_accepts_user hu).mp hacc]
  · by_cases ha : s.facts.callee? id = some .asType
    · rw [callRule_of_cast ha] at hacc
      obtain ⟨-, source, rest, rfl, hs⟩ := castRule_accepts.mp hacc
      exact (h source List.mem_cons_self).verdict none p q hs
    · rw [callRule_of_other hu ha] at hacc
      obtain ⟨-, hout, hrow⟩ := genericCall_accepts.mp hacc
      cases hr : s.facts.isRowScoped id with
      | false => rw [hout hr]
      | true =>
          obtain ⟨f, -, hyes⟩ := rowCallRule_accepts.mp (hrow hr).2
          exact serverSide_silent h hyes

theorem judge_silent (s : Scope) (e : Expr) : (s.judge e).Silent := by
  induction e using Expr.ind with
  | call id head args ih =>
      have hargs : ∀ r ∈ s.judgeArgs args, r.Silent := forall_mem_judgeArgs ih
      refine ⟨fun _ p q hacc => callRule_silent hargs hacc, fun p q hsh => ?_⟩
      obtain ⟨v, m, hv, hm⟩ := Check.gives_bind.mp hsh
      cases v with
      | delegable =>
          obtain ⟨-, rfl⟩ := Check.gives_pure.mp hm
          exact callRule_silent hargs hv
      | rejected r => exact absurd (Check.gives_pure.mp hm).1 (by simp)
  | dotted id left right ih =>
      refine ⟨fun op p q hacc => ?_, ih.shape⟩
      obtain ⟨hrow, hout⟩ := dottedRule_accepts.mp hacc
      cases hr : s.facts.isRowScoped id with
      | false => rw [(hout hr).2]
      | true =>
          obtain ⟨-, hsh⟩ := accessRule_accepts.mp (hrow hr)
          rcases hsh with ⟨m, hsh, rfl⟩ | ⟨hsh, -⟩
          · rw [Pass.findings_mark, (shape_gives_exempted.mp hsh).2]
          · exact ih.shape p q hsh
  | first id name =>
      refine ⟨fun op p q hacc => by rw [(firstRule_accepts.mp hacc).2.2], fun p q hsh => ?_⟩
      rw [(Check.gives_pure.mp hsh).2]
  | binary id op left right ihl ihr =>
      refine ⟨fun _ p q hacc => ?_, fun p q hsh => by rw [(Check.gives_pure.mp hsh).2]⟩
      obtain ⟨hrow, hout⟩ := rowRule_accepts.mp hacc
      cases hr : s.facts.isRowScoped id with
      | false => rw [(hout hr).2]
      | true =>
          obtain ⟨-, -, -, m, hl, hr⟩ := binaryRule_accepts.mp (hrow hr)
          exact (ihr.verdict _ m q hr).trans (ihl.verdict _ p m hl)
  | unary id op operand ih =>
      refine ⟨fun _ p q hacc => ?_, fun p q hsh => by rw [(Check.gives_pure.mp hsh).2]⟩
      obtain ⟨hrow, hout⟩ := rowRule_accepts.mp hacc
      cases hr : s.facts.isRowScoped id with
      | false => rw [(hout hr).2]
      | true => exact ih.verdict _ p q (unaryRule_accepts.mp (hrow hr)).2.2
  | literal id value =>
      refine ⟨fun _ p q hacc => by rw [Check.accepts_accept.mp hacc], fun p q hsh => ?_⟩
      rw [(Check.gives_pure.mp hsh).2]
  | other id description =>
      refine ⟨fun _ p q hacc => ?_, fun p q hsh => by rw [(Check.gives_pure.mp hsh).2]⟩
      obtain ⟨hrow, hout⟩ := rowRule_accepts.mp hacc
      cases hr : s.facts.isRowScoped id with
      | false => rw [(hout hr).2]
      | true => exact absurd (hrow hr) not_accepts_otherRule

end Scope

end

end Delegability
