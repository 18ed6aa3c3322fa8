/-
# `Delegability.Proofs.WrittenOperator` — an operator beside the formula, or in it

A case may name the operator whose left operand its formula is.  The same can be written
out, with a literal on the right:

    operator  ⊕,  expression  x        and        expression  x ⊕ literal

The two are resolved and judged along different ways.  Here is how they compare.

* `resolve_writtenOut`: the second case is the first, resolved, with two nodes more.  So what
  fails the first fails the second; the facts about the two nodes can fail by themselves.
* `validateNode_under`: if the source knows the operator, the two checks are one and the
  same, and so is all that comes of them.  If not, the operator is rejected.
-/
import Delegability.Proofs.Locality
import Delegability.Proofs.Resolution
import Delegability.Proofs.Skeleton

namespace Delegability

/-! ## Resolving -/

/-- The case with its operator written out above its formula. -/
def Case.writtenOut (c : Case) (op : BinaryOp) (value : Json.Value) (literal own : CaseFacts) :
    Case :=
  { c with operator := none
           expression := .binary op c.expression (.literal value literal) own }

/-- The problem with an operator above its formula, in two nodes from `n` on. -/
def Problem.under (p : Problem) (n : NodeId) (op : BinaryOp) (value : Json.Value)
    (l o : NodeFacts) : Problem :=
  { p with operator := none
           expression := .binary (n + 1) op p.expression (.literal n value)
           facts := (p.facts.insert n l).insert (n + 1) o }

namespace Case

/-- Why the facts about a node cannot be resolved, if they cannot. -/
def fault? (c : Case) (facts : CaseFacts) : Option CaseFault :=
  match resolveOption c.resolveType facts.type?, resolveOption c.resolveName facts.name? with
  | .error e, _ => some e
  | .ok _, .error e => some e
  | .ok _, .ok _ => none

theorem resolveFacts_of_fault {c : Case} {facts : CaseFacts} {e : CaseFault}
    (h : c.fault? facts = some e) (functions : FunctionRegistry) :
    c.resolveFacts functions { facts } = .error e := by
  unfold fault? at h
  unfold resolveFacts
  split at h
  next e' ht =>
    obtain rfl := Option.some.inj h
    rw [ht]
    rfl
  next t e' ht hn =>
    obtain rfl := Option.some.inj h
    rw [ht, hn]
    rfl
  next => cases h

theorem resolveFacts_of_no_fault {c : Case} {facts : CaseFacts} (h : c.fault? facts = none)
    (functions : FunctionRegistry) :
    ∃ f, c.resolveFacts functions { facts } = .ok f ∧ f.rowScoped = facts.rowScoped ∧
      f.isPure = !facts.impure := by
  unfold fault? at h
  unfold resolveFacts
  split at h
  next => cases h
  next => cases h
  next t n ht hn =>
    rw [ht, hn]
    exact ⟨_, rfl, rfl, rfl⟩

variable (c : Case) (op : BinaryOp) (value : Json.Value) (literal own : CaseFacts)

theorem problem_writtenOut {fs : List NodeFacts} (hlength : fs.length = c.expression.size)
    (base : Features) (f : DelegableFunction) (l o : NodeFacts) :
    (c.writtenOut op value literal own).problem base f (fs ++ [l] ++ [o]) =
      (c.problem base f fs).under c.expression.size op value l o := by
  have hnumber : (c.writtenOut op value literal own).expression.number 0 =
      .binary (c.expression.size + 1) op (c.expression.number 0)
        (.literal c.expression.size value) := by
    show Expr.binary (0 + c.expression.size + 1) op (c.expression.number 0)
      (.literal (0 + c.expression.size) value) = _
    rw [Nat.zero_add]
  unfold problem
  rw [hnumber, FactTable.ofFacts_concat, FactTable.ofFacts_concat, List.length_append, hlength]
  rfl

/-- Resolving goes over the formula first, then over the literal and the operator. -/
theorem resolve_writtenOut (functions : FunctionRegistry) (base : Features) :
    (c.writtenOut op value literal own).resolve functions base = (do
      let p ← c.resolve functions base
      let l ← c.resolveFacts functions { facts := literal }
      let o ← c.resolveFacts functions { facts := own }
      return p.under c.expression.size op value l o) := by
  have hrecords : (c.writtenOut op value literal own).expression.records =
      c.expression.records ++ [{ facts := literal }] ++ [{ facts := own }] := rfl
  have hfacts : (c.writtenOut op value literal own).resolveFacts functions =
      c.resolveFacts functions := rfl
  have hfunction : (c.writtenOut op value literal own).function = c.function := rfl
  rw [resolve_eq, resolve_eq, hrecords, hfacts, hfunction, List.mapM_append, List.mapM_append,
    List.mapM_cons, List.mapM_cons, List.mapM_nil]
  cases functions.get c.function with
  | error e => rfl
  | ok f =>
      cases hfs : c.expression.records.mapM (c.resolveFacts functions) with
      | error e => rfl
      | ok fs =>
          have hlength : fs.length = c.expression.size := by
            rw [Success.length_of_mapM hfs, CaseExpr.length_records]
          cases hl : c.resolveFacts functions { facts := literal } with
          | error e => rfl
          | ok l =>
              cases ho : c.resolveFacts functions { facts := own } with
              | error e => rfl
              | ok o =>
                  exact congrArg Except.ok
                    (c.problem_writtenOut op value literal own hlength base f l o)

/-- Beyond the first case, the facts about the added nodes can fail, those of the literal
first. -/
theorem resolve_writtenOut_eq_error {functions : FunctionRegistry} {base : Features} {p : Problem}
    (hp : c.resolve functions base = .ok p) (e : CaseFault) :
    (c.writtenOut op value literal own).resolve functions base = .error e ↔
      (c.fault? literal).or (c.fault? own) = some e := by
  rw [resolve_writtenOut, hp]
  show (c.resolveFacts functions { facts := literal } >>= _) = _ ↔ _
  cases hl : c.fault? literal with
  | some e' =>
      rw [resolveFacts_of_fault hl]
      exact ⟨fun h => congrArg some (Except.error.inj h),
        fun h => congrArg Except.error (Option.some.inj h)⟩
  | none =>
      obtain ⟨l, hl, -, -⟩ := resolveFacts_of_no_fault hl functions
      rw [hl]
      show (c.resolveFacts functions { facts := own } >>= _) = _ ↔ _
      cases ho : c.fault? own with
      | some e' =>
          rw [resolveFacts_of_fault ho]
          exact ⟨fun h => congrArg some (Except.error.inj h),
            fun h => congrArg Except.error (Option.some.inj h)⟩
      | none =>
          obtain ⟨o, ho, -, -⟩ := resolveFacts_of_no_fault ho functions
          rw [ho]
          exact iff_of_false (fun h => by cases h) (fun h => by cases h)

end Case

/-! ## Judging -/

theorem Strategy.ofOperator_eq {op : BinaryOp} (h : op.isLogical = false) :
    (Strategy.ofOperator op).map some = .ok (Scope.strategyAbove op true) := by
  cases op <;> first | rfl | cases h

/-- An operator over a formula and a literal, neither side of which is in its way: once the
source knows the operator, the formula decides. -/
theorem Scope.validateNode_over_literal {s : Scope} {id n : NodeId} {op : BinaryOp} {left : Expr}
    {value : Json.Value} {above : Option Strategy} (hrow : s.facts.isRowScoped id = true)
    (hpure : s.facts.isPure id = true) (hl : s.facts.isRowScoped n = false) :
    s.validateNode (.binary id op left (.literal n value)) above =
      if s.facet.table.has op.capability then s.validateNode left (strategyAbove op true)
      else s.rejectOperator id .binaryOp op.text := by
  have hpurity : s.purity id .binaryOp = Check.accept := by
    unfold purity
    rw [hpure]
    rfl
  have hrule : s.validateNode (.binary id op left (.literal n value)) above =
      s.binaryRule id op (s.judge left) (s.judge (.literal n value)) := if_pos hrow
  rw [hrule, binaryRule, hpurity, Check.accept_andThen, operandStrategies_eq, judge_id, judge_id]
  -- the literal accepts whatever the operator above it
  show (if _ then _ else if (_ && s.facts.isRowScoped n) then _
    else Check.andThen (s.validateNode left _) Check.accept) = _
  rw [hl, Bool.and_false, if_neg Bool.false_ne_true, Check.andThen_accept, Facet.allowsOnTable,
    CapabilitySet.hasAll_single]
  cases s.facet.table.has op.capability with
  | false => rfl
  | true => rfl

namespace Problem

/-- Why the operator above a formula of `n` nodes is rejected where the source does not know
it. -/
def operatorReason (n : NodeId) (op : BinaryOp) : Rejection :=
  ⟨.other, n + 1, .binaryOp, .notSupportedByService op.text, Context.operatorUnsupported op.text⟩

variable {p : Problem} {n : NodeId} {l o : NodeFacts} (op : BinaryOp) (value : Json.Value)

theorem agreeOn_under : p.scope.AgreeOn (· < n) (p.under n op value l o).scope where
  function := rfl
  facet := rfl
  features := rfl
  facts := by
    intro id hid
    have hn : id ≠ n := Nat.ne_of_lt hid
    have hn' : id ≠ n + 1 := Nat.ne_of_lt (Nat.lt_succ_of_lt hid)
    show ((p.facts.insert n l).insert (n + 1) o).facts? id = p.facts.facts? id
    rw [FactTable.facts?_insert_of_ne _ hn', FactTable.facts?_insert_of_ne _ hn]

/-- The operator above the formula is asked for, and then the formula is judged as it is
beside it. -/
theorem validateNode_under (hids : ∀ x ∈ p.expression.postorder, x.id < n)
    (hl : l.rowScoped = false) (hrow : o.rowScoped = true) (hpure : o.isPure = true) :
    (p.under n op value l o).scope.validateNode (p.under n op value l o).expression none =
      if p.scope.facet.table.has op.capability then
        p.scope.validateNode p.expression (Scope.strategyAbove op true)
      else p.scope.rejectOperator (n + 1) .binaryOp op.text := by
  have hown : (p.under n op value l o).facts.facts? (n + 1) = some o :=
    FactTable.facts?_insert_self _ _ _
  have hliteral : (p.under n op value l o).facts.facts? n = some l :=
    (FactTable.facts?_insert_of_ne _ (Nat.ne_of_lt (Nat.lt_succ_self n)) o).trans
      (FactTable.facts?_insert_self _ _ _)
  have hrow' : (p.under n op value l o).scope.facts.isRowScoped (n + 1) = true :=
    (congrArg (Option.any _) hown).trans hrow
  have hpure' : (p.under n op value l o).scope.facts.isPure (n + 1) = true :=
    (congrArg (Option.any _) hown).trans hpure
  have hl' : (p.under n op value l o).scope.facts.isRowScoped n = false :=
    (congrArg (Option.any _) hliteral).trans hl
  have hcheck : (p.under n op value l o).scope.validateNode (p.under n op value l o).expression
      none = _ := Scope.validateNode_over_literal hrow' hpure' hl'
  rw [hcheck, (agreeOn_under op value).validateNode_eq hids]
  rfl

end Problem

/-! ## Both cases -/

/-- **Beside or in the formula.**  An operator that joins no conditions may stand beside the
formula or be written out above it.  What keeps the first case from being resolved keeps the
second; only the facts about the nodes that were added can do so besides.  If the source knows
the operator the two reports agree on the verdict, its status and the rejections, and if not
the second rejects the operator. -/
theorem Analysis.run_writtenOut (c : Case) (op : BinaryOp) (value : Json.Value)
    (literal own : CaseFacts) (config : Config) (stamp stamp' : Nat → Stamp)
    (hop : c.operator = some op) (hlogical : op.isLogical = false)
    (hliteral : literal.rowScoped = false) (hrow : own.rowScoped = true)
    (hpure : own.impure = false) :
    (∀ functions base e, c.resolve functions base = .error e →
      (c.writtenOut op value literal own).resolve functions base = .error e) ∧
    (∀ functions base p, c.resolve functions base = .ok p → ∀ e,
      (c.writtenOut op value literal own).resolve functions base = .error e ↔
        (c.fault? literal).or (c.fault? own) = some e) ∧
    ∀ p, c.resolve .builtins config.features = .ok p →
      (c.fault? literal).or (c.fault? own) = none →
      ∃ a b, Analysis.run stamp config c = .ok a ∧
        Analysis.run stamp' config (c.writtenOut op value literal own) = .ok b ∧
        ((c.table.facetFor p.function.requires).table.has op.capability = true →
          b.report.delegable = a.report.delegable ∧ b.report.status? = a.report.status? ∧
          b.report.rejections = a.report.rejections) ∧
        ((c.table.facetFor p.function.requires).table.has op.capability = false →
          b.report.delegable = false ∧
          ∃ r, b.report.rejections = [r] ∧ r.status = .other ∧ r.node = b.report.root) := by
  refine ⟨?_, ?_, ?_⟩
  · intro functions base e he
    rw [Case.resolve_writtenOut, he]
    rfl
  · intro functions base p hp e
    exact c.resolve_writtenOut_eq_error op value literal own hp e
  intro p hp hfault
  obtain ⟨hl, ho⟩ := Option.or_eq_none_iff.mp hfault
  obtain ⟨l, hl, hlrow, -⟩ := Case.resolveFacts_of_no_fault hl .builtins
  obtain ⟨o, ho, horow, hopure⟩ := Case.resolveFacts_of_no_fault ho .builtins
  have hp' : (c.writtenOut op value literal own).resolve .builtins config.features =
      .ok (p.under c.expression.size op value l o) := by
    rw [Case.resolve_writtenOut, hp, hl, ho]
    rfl
  obtain ⟨hexpr, htable, hop'⟩ := Case.resolve_keeps hp
  have hids : ∀ x ∈ p.expression.postorder, x.id < c.expression.size := by
    rw [hexpr]
    exact fun x hx => CaseExpr.id_lt_of_mem hx
  have hstrategy : p.strategy = .ok (Scope.strategyAbove op true) := by
    unfold Problem.strategy
    rw [hop', hop]
    exact Strategy.ofOperator_eq hlogical
  have hcheck := Problem.validateNode_under op value hids (hlrow.trans hliteral)
    (horow.trans hrow) (by rw [hopure, hpure]; rfl)
  obtain ⟨v, q, hv, -⟩ := Session.validateNode_once {} p.scope p.expression
    (Scope.strategyAbove op true)
  obtain ⟨ledger, ha⟩ := Analysis.run_eq stamp hp hstrategy hv
  have hfacet : p.scope.facet = c.table.facetFor p.function.requires := htable ▸ rfl
  rw [hfacet] at hcheck
  cases hhas : (c.table.facetFor p.function.requires).table.has op.capability with
  | true =>
      rw [if_pos hhas] at hcheck
      rw [← hcheck] at hv
      obtain ⟨ledger', hb⟩ := Analysis.run_eq stamp' hp' rfl hv
      exact ⟨_, _, ha, hb, fun _ => ⟨rfl, rfl, rfl⟩, fun h => Bool.noConfusion h⟩
  | false =>
      rw [if_neg (Bool.eq_false_iff.mp hhas)] at hcheck
      have hv' : ((p.under c.expression.size op value l o).scope.validateNode
          (p.under c.expression.size op value l o).expression none).Gives {}
          (.rejected (Problem.operatorReason c.expression.size op))
          (({} : Pass).noteRejection (Problem.operatorReason c.expression.size op)) := by
        rw [hcheck]
        rfl
      obtain ⟨ledger', hb⟩ := Analysis.run_eq stamp' hp' rfl hv'
      exact ⟨_, _, ha, hb, fun h => Bool.noConfusion h, fun _ => ⟨rfl, _, rfl, rfl, rfl⟩⟩

/-! ## An operator that the column does not allow

`City` may not stand under `=`, which the source knows, and the source does not know `<`. -/

namespace Sample

def beside (op : BinaryOp) : Case where
  function := "Filter"
  table := { filter := facet }
  operator := some op
  expression := .first "City" { rowScoped := true, name? := some (.localColumn "City" false) }

/-- What the operator's own node is known to be. -/
def onRow : CaseFacts := { rowScoped := true }

theorem beside_writtenOut :
    (∃ r a b, Analysis.run silent.stamp {} (beside .equal) = .ok a ∧
      Analysis.run silent.stamp {} ((beside .equal).writtenOut .equal .null {} onRow) = .ok b ∧
      a.report.rejections = [r] ∧ b.report.rejections = [r]) ∧
    ∃ r b, Analysis.run silent.stamp {} ((beside .less).writtenOut .less .null {} onRow) = .ok b ∧
      b.report.rejections = [r] ∧ r.status = .other ∧ r.node = b.report.root := by
  have hequal := (Analysis.run_writtenOut (beside .equal) .equal .null {} onRow {} silent.stamp
    silent.stamp rfl rfl rfl rfl rfl).2.2
  have hless := (Analysis.run_writtenOut (beside .less) .less .null {} onRow {} silent.stamp
    silent.stamp rfl rfl rfl rfl rfl).2.2
  constructor
  · obtain ⟨a, b, ha, hb, hsame, -⟩ := hequal _ rfl rfl
    have hrun : (Analysis.run silent.stamp {} (beside .equal)).map (·.report.rejections) =
        .ok [⟨.noSupportByColumn, 0, .firstName, .notSupportedByColumn "City",
          Context.columnOperator "City" "="⟩] := rfl
    rw [ha] at hrun
    have hr := Except.ok.inj hrun
    exact ⟨_, a, b, ha, hb, hr, (hsame rfl).2.2.trans hr⟩
  · obtain ⟨a, b, -, hb, -, hother⟩ := hless _ rfl rfl
    obtain ⟨-, r, hr, hstatus, hnode⟩ := hother rfl
    exact ⟨r, b, hb, hr, hstatus, hnode⟩

/-- Facts of a literal that does not depend on the row, with a path that is none. -/
def misnamed : CaseFacts := { name? := some (.localColumn "" false) }

/-- The first case is resolved and the second is not. -/
theorem beside_misnamed :
    (beside .equal).operator = some .equal ∧ BinaryOp.equal.isLogical = false ∧
      misnamed.rowScoped = false ∧ onRow.rowScoped = true ∧ onRow.impure = false ∧
      (∃ p, (beside .equal).resolve .builtins {} = .ok p) ∧
      ((beside .equal).writtenOut .equal .null misnamed onRow).resolve .builtins {} =
        .error (.badPath "" .empty) :=
  ⟨rfl, rfl, rfl, rfl, rfl, ⟨_, rfl⟩, rfl⟩

end Sample

end Delegability
