/-
# `Delegability.Proofs.Soundness` — what a delegable verdict promises

A formula that is judged delegable is sent to the source, and with it everything
that is *pushed*: the formula itself and, below a pushed node,

    operands of an operator that depends on the row
    what a cast is applied to
    both arguments of a match that depends on the row
    the call that the left sides of an access end in

Nothing below other nodes reaches the source: their values are known before.
`Pushed` carries along what the operator or the match directly above requires of
a column, in the words of the source and not of the rules: nothing under `And`,
`Or`, `Not` and casts, the operator's own capability elsewhere, and to be
searched (`contains`) for what stands right of `in` and `exactin`.

`Honoured` is what the source has promised about a node, one line per kind.

    the verdict is delegable  ⟹  every pushed node is honoured

The induction is on `Pushed`, from the root down; what travels is that the node
was accepted, in whatever state the pass had then (`Pushed.accepted`).
-/
import Delegability.Proofs.Acceptance

namespace Delegability

/-- What an operand's column has to allow, by the operator and the side. -/
def BinaryOp.need : BinaryOp → Bool → Option CapabilitySet
  | .and, _ | .or, _ => none
  | .isIn, false | .exactIn, false => some (.single .contains)
  | op, _ => some (.single op.capability)

/-- What the operand's column has to allow. -/
def UnaryOp.need : UnaryOp → Option CapabilitySet
  | .not => none
  | .negate => some (.single .negate)

namespace Scope

/-- `s.Pushed root need e n`: if `root` is pushed below something that needs `need`,
then so is `e`, below something that needs `n`. -/
inductive Pushed (s : Scope) (root : Expr) (need : Option CapabilitySet) :
    Expr → Option CapabilitySet → Prop where
  | root : Pushed s root need root need
  | left {id op left right n} : Pushed s root need (.binary id op left right) n →
      s.facts.isRowScoped id = true → Pushed s root need left (op.need true)
  | right {id op left right n} : Pushed s root need (.binary id op left right) n →
      s.facts.isRowScoped id = true → Pushed s root need right (op.need false)
  | operand {id op operand n} : Pushed s root need (.unary id op operand) n →
      s.facts.isRowScoped id = true → Pushed s root need operand op.need
  | cast {id head source rest n} : Pushed s root need (.call id head (source :: rest)) n →
      s.facts.callee? id = some .asType → Pushed s root need source none
  | argument {id head args n f c a} : Pushed s root need (.call id head args) n →
      s.facts.isRowScoped id = true → s.facts.callee? id = some f →
      matchCapability? f = some c → a ∈ args → Pushed s root need a (some (.single c))
  | spine {id left right n callId head args} : Pushed s root need (.dotted id left right) n →
      s.facts.isRowScoped id = true → left.spineBottom = .call callId head args →
      Pushed s root need (.call callId head args) none

/-- What the source promises about a pushed node below something that needs `need`. -/
def Honoured (s : Scope) (need : Option CapabilitySet) : Expr → Prop
  | .binary id op left right => s.facts.isRowScoped id = true →
      s.facet.table.has op.capability = true ∧
        ¬ (op.isComparison = true ∧ s.facts.isRowScoped left.id = true ∧
          s.facts.isRowScoped right.id = true)
  | .unary id op _ => s.facts.isRowScoped id = true → s.facet.table.has op.capability = true
  | .first id _ => s.facts.isRowScoped id = true →
      (∀ path source, s.facts.name? id = some (.localColumn path (some source)) →
        (source.facetFor s.function.requires).Supports path s.function.requires need) ∧
      ∀ column x, s.facts.name? id = some (.entityExpansion column x) →
        ∃ e, x.entity? = some e ∧
          (e.source.facetFor s.function.requires).Supports (.ofName column) s.function.requires need
  | .dotted id left right => s.facts.isRowScoped id = true →
      s.ExemptSpine left ∨ s.AccessSupports id left right need
  | .call id _ args => s.facts.isRowScoped id = true →
      s.facts.callee? id = some .user ∨
      (s.facts.callee? id = some .asType ∧ s.facet.table.has .asType = true ∧ args ≠ []) ∨
      ∃ f c column pattern, s.facts.callee? id = some f ∧ matchCapability? f = some c ∧
        args = [column, pattern] ∧ s.facet.table.has c = true ∧
        s.facts.isRowScoped pattern.id = false
  | .literal .. => True
  | .other id _ => s.facts.isRowScoped id = false

/-! ## Acceptance travels down -/

theorem strategyAbove_need (op : BinaryOp) (onLeft : Bool) :
    (strategyAbove op onLeft).map Strategy.requires = op.need onLeft := by
  cases op <;> cases onLeft <;> rfl

theorem strategyUnder_need (op : UnaryOp) :
    (strategyUnder op).map Strategy.requires = op.need := by
  cases op <;> rfl

/-- What does not depend on the row is judged alike under every operator. -/
theorem validateNode_of_not_row {s : Scope} {e : Expr} (h : s.facts.isRowScoped e.id = false)
    (op : Option Strategy) : s.validateNode e op = s.validateNode e none := by
  cases e with
  | first id name =>
      have h : s.facts.isRowScoped id = false := h
      simp [validateNode, judge, firstRule, h]
  | dotted id left right =>
      have h : s.facts.isRowScoped id = false := h
      simp [validateNode, judge, dottedRule, h]
  | call | binary | unary | literal | other => rfl

/-- A call that the source may match is judged by the general rule of calls. -/
theorem callRule_of_match {s : Scope} {id : NodeId} {args : List Reading} {f : DelegableFunction}
    {c : Capability} (hf : s.facts.callee? id = some f) (hc : matchCapability? f = some c) :
    s.callRule id args = s.genericCall id args false := by
  apply callRule_of_other
  · rintro hu
    cases hf.symm.trans hu
    cases hc
  · rintro ha
    cases hf.symm.trans ha
    cases hc

/-- An accepted match has a column and a pattern; both are accepted, and the pattern
does not depend on the row. -/
theorem match_accepted {s : Scope} {id : NodeId} {args : List Expr} {f : DelegableFunction}
    {c : Capability} {p q : Pass} (hr : s.facts.isRowScoped id = true)
    (hf : s.facts.callee? id = some f) (hc : matchCapability? f = some c)
    (h : (s.callRule id (s.judgeArgs args)).Accepts p q) :
    ∃ column pattern m, args = [column, pattern] ∧ s.facet.table.has c = true ∧
      (s.validateNode column (some (.stringMatch (.single c)))).Accepts p m ∧
      s.facts.isRowScoped pattern.id = false ∧ (s.validateNode pattern none).Accepts m q := by
  rw [callRule_of_match hf hc] at h
  obtain ⟨-, -, h⟩ := genericCall_accepts.mp h
  obtain ⟨g, hg, h⟩ := rowCallRule_accepts.mp (h hr).2
  cases hf.symm.trans hg
  obtain ⟨d, column, pattern, m, hd, hargs, ht, hcol, hpat, hq⟩ := serverSide_gives_true.mp h
  cases hc.symm.trans hd
  rw [judgeArgs_eq_map] at hargs
  obtain ⟨column, rest, rfl, rfl, hrest⟩ := List.map_eq_cons_iff.mp hargs
  obtain ⟨pattern, more, rfl, rfl, hmore⟩ := List.map_eq_cons_iff.mp hrest
  obtain rfl := List.map_eq_nil_iff.mp hmore
  rw [judge_id] at hpat
  exact ⟨column, pattern, m, rfl, ht, hcol, hpat, hq⟩

/-- The formula was accepted at some point of the pass, below an operator that needs
`need`. -/
def AcceptedBelow (s : Scope) (e : Expr) (need : Option CapabilitySet) : Prop :=
  ∃ op p q, op.map Strategy.requires = need ∧ (s.validateNode e op).Accepts p q

/-- A pushed node was accepted where it stands. -/
theorem Pushed.accepted {s : Scope} {root e : Expr} {need n : Option CapabilitySet}
    (hp : s.Pushed root need e n) (h : s.AcceptedBelow root need) : s.AcceptedBelow e n := by
  induction hp with
  | root => exact h
  | @left id op l r _ _ hr ih =>
      obtain ⟨_, p, q, -, hacc⟩ := ih
      obtain ⟨-, -, -, m, hl, -⟩ := binaryRule_accepts.mp ((rowRule_accepts.mp hacc).1 hr)
      exact ⟨_, p, m, strategyAbove_need op true, hl⟩
  | @right id op l r _ _ hr ih =>
      obtain ⟨_, p, q, -, hacc⟩ := ih
      obtain ⟨-, -, -, m, -, hr⟩ := binaryRule_accepts.mp ((rowRule_accepts.mp hacc).1 hr)
      exact ⟨_, m, q, strategyAbove_need op false, hr⟩
  | @operand id op operand _ _ hr ih =>
      obtain ⟨_, p, q, -, hacc⟩ := ih
      obtain ⟨-, -, ho⟩ := unaryRule_accepts.mp ((rowRule_accepts.mp hacc).1 hr)
      exact ⟨_, p, q, strategyUnder_need op, ho⟩
  | @cast id head source rest _ _ hf ih =>
      obtain ⟨_, p, q, -, hacc⟩ := ih
      have hcast : (s.castRule id (s.judgeArgs (source :: rest))).Accepts p q :=
        callRule_of_cast hf ▸ hacc
      obtain ⟨-, _, _, hargs, hs⟩ := castRule_accepts.mp hcast
      cases hargs
      exact ⟨none, p, q, rfl, hs⟩
  | @argument id head args _ f c a _ hr hf hc ha ih =>
      obtain ⟨_, p, q, -, hacc⟩ := ih
      obtain ⟨column, pattern, m, rfl, -, hcol, hpat, hq⟩ := match_accepted hr hf hc hacc
      rcases List.mem_cons.mp ha with rfl | ha
      · exact ⟨_, p, m, rfl, hcol⟩
      · obtain rfl := List.mem_singleton.mp ha
        -- the pattern was judged under no operator, which makes no difference to it
        exact ⟨some (.stringMatch (.single c)), m, q, rfl, validateNode_of_not_row hpat _ ▸ hq⟩
  | @spine id l r _ callId head args _ hr hb ih =>
      obtain ⟨_, p, q, -, hacc⟩ := ih
      obtain ⟨-, hsh⟩ := accessRule_accepts.mp ((dottedRule_accepts.mp hacc).1 hr)
      rcases hsh with ⟨m, hsh, -⟩ | ⟨hsh, -⟩
      · obtain ⟨⟨_, _, hfirst, -⟩, -⟩ := shape_gives_exempted.mp hsh
        exact absurd (hb.symm.trans hfirst) (by simp)
      · rcases shape_gives_resolvable.mp hsh with ⟨_, _, hfirst, -⟩ | ⟨_, _, _, hcall, hv⟩
        · exact absurd (hb.symm.trans hfirst) (by simp)
        · cases hb.symm.trans hcall
          exact ⟨none, p, q, rfl, hv⟩

/-! ## What an accepted node was promised -/

/-- An accepted node is honoured. -/
theorem AcceptedBelow.honoured {s : Scope} {e : Expr} {need : Option CapabilitySet}
    (h : s.AcceptedBelow e need) : s.Honoured need e := by
  obtain ⟨op, p, q, rfl, h⟩ := h
  cases e with
  | binary id o left right =>
      intro hr
      obtain ⟨-, ht, hb, -⟩ := binaryRule_accepts.mp ((rowRule_accepts.mp h).1 hr)
      rw [judge_id, judge_id] at hb
      exact ⟨ht, hb⟩
  | unary id o operand =>
      intro hr
      exact (unaryRule_accepts.mp ((rowRule_accepts.mp h).1 hr)).2.1
  | first id name =>
      intro hr
      obtain ⟨-, hn, -⟩ := firstRule_accepts.mp h
      obtain ⟨info, hinfo, hknown, hm⟩ := hn hr
      refine ⟨fun path source hcol => ?_, fun column x href => ?_⟩
      · cases hinfo.symm.trans hcol
        exact hm source rfl
      · cases hinfo.symm.trans href
        cases he : x.entity? with
        | none => simp [NameInfo.unknownEntity?, he] at hknown
        | some entity =>
            exact ⟨entity, rfl, hm entity.source (by simp [NameInfo.metadata?, he])⟩
  | dotted id left right =>
      intro hr
      obtain ⟨-, hsh⟩ := accessRule_accepts.mp ((dottedRule_accepts.mp h).1 hr)
      rcases hsh with ⟨m, hsh, -⟩ | ⟨-, hsup⟩
      · exact Or.inl (shape_gives_exempted.mp hsh).1
      · exact Or.inr hsup
  | call id head args =>
      intro hr
      have hcall : (s.callRule id (s.judgeArgs args)).Accepts p q := h
      by_cases hu : s.facts.callee? id = some .user
      · exact Or.inl hu
      · refine Or.inr ?_
        by_cases ha : s.facts.callee? id = some .asType
        · rw [callRule_of_cast ha] at hcall
          obtain ⟨ht, source, rest, hargs, -⟩ := castRule_accepts.mp hcall
          refine Or.inl ⟨ha, ht, ?_⟩
          rintro rfl
          cases hargs
        · have hgen := hcall
          rw [callRule_of_other hu ha] at hgen
          obtain ⟨f, hf, hs⟩ := rowCallRule_accepts.mp ((genericCall_accepts.mp hgen).2.2 hr).2
          obtain ⟨c, -, -, -, hc, -⟩ := serverSide_gives_true.mp hs
          obtain ⟨column, pattern, m, hargs, ht, -, hpat, -⟩ := match_accepted hr hf hc hcall
          exact Or.inr ⟨f, c, column, pattern, hf, hc, hargs, ht, hpat⟩
  | literal id value => trivial
  | other id description =>
      cases hr : s.facts.isRowScoped id with
      | false => exact hr
      | true => exact absurd ((rowRule_accepts.mp h).1 hr) not_accepts_otherRule

end Scope

/-- **Soundness**: if a formula is judged delegable, every pushed node of it is
honoured by the source. -/
theorem Session.honoured_of_delegates {session : Session} {t : Tracker} {s : Scope} {root e : Expr}
    {op : Option Strategy} {need : Option CapabilitySet} (h : session.Delegates t s root op)
    (hp : s.Pushed root (op.map Strategy.requires) e need) : s.Honoured need e := by
  obtain ⟨-, q, hacc⟩ := Session.delegates_iff.mp h
  exact (hp.accepted ⟨op, _, q, rfl, hacc⟩).honoured

/-! ## A condition with a match

`Name = … And StartsWith(City, "a")` over a source with two columns.  The column of
the match is pushed two levels down, and the need it stands under is the match's. -/

namespace Sample

def name : Name := ⟨"Name", by decide⟩

def city : Name := ⟨"City", by decide⟩

def facet : Facet where
  table := .ofList [.and, .equal, .startsWith]
  columns := .ofList [(.ofName name, ⟨.single .filter, .single .equal⟩),
    (.ofName city, ⟨.single .filter, .single .startsWith⟩)]

def column (n : Name) : NodeFacts where
  rowScoped := true
  name? := some (.localColumn (.ofName n) (some { filter := facet }))

def facts : FactTable where
  facts := .ofList [(0, column name), (1, {}), (2, { rowScoped := true }), (3, column city), (4, {}),
    (5, { rowScoped := true, blockScopedConstant := true, callee? := some .startsWith }),
    (6, { rowScoped := true })]

def scope : Scope := ⟨.filter, facts, facet⟩

def formula : Expr :=
  .binary 6 .and (.binary 2 .equal (.first 0 name) (.literal 1 .null))
    (.call 5 ⟨"StartsWith", by decide⟩ [.first 3 city, .literal 4 (.str "a")])

/-- The head of the match, for formulas that vary it. -/
def matchHead : Name := ⟨"StartsWith", by decide⟩

def silent : Tracker := ⟨[], fun _ => default⟩

theorem formula_delegates : ({} : Session).Delegates silent scope formula none :=
  ⟨_, _, rfl, rfl⟩

theorem matched_column_honoured :
    ({} : Session).Delegates silent scope formula none ∧
      scope.Pushed formula none (.first 3 city) (some (.single .startsWith)) ∧
      scope.Honoured (some (.single .startsWith)) (.first 3 city) := by
  have hp : scope.Pushed formula none (.first 3 city) (some (.single .startsWith)) :=
    .argument (.right .root rfl) rfl rfl rfl List.mem_cons_self
  exact ⟨formula_delegates, hp, Session.honoured_of_delegates formula_delegates hp⟩

end Sample

end Delegability
