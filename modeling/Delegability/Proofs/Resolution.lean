/-
# `Delegability.Proofs.Resolution` — what resolving a case does

Resolving walks over the formula twice: once to number its nodes and once to resolve what is
said about them.  Both go through the nodes in the same order, each node after those below
it, and that order is also how the identities count:

    number start e      has the identities   start, start + 1, …, start + size e - 1
    records e           has one record for each of them, in this order

So what is put above a formula gets identities of its own, and the facts already recorded
stay where they are.

A case that was resolved is validated once (`Analysis.run_eq_hear`).  Nothing goes wrong there:
the functions of formulas all have names.
-/
import Delegability.Analysis
import Delegability.Proofs.Success
import Delegability.Proofs.Transcript

namespace Delegability

/-! ## Identities -/

namespace CaseExpr

mutual

/-- The identities of a numbered formula count its nodes. -/
theorem ids_number : ∀ (e : CaseExpr) (start : NodeId),
    (e.number start).postorder.map Expr.id = List.range' start e.size
  | .first _ _, _ | .literal _ _, _ | .other _ _, _ => rfl
  | .dotted left _ _, start => by
      rw [number, Expr.postorder, List.map_append, ids_number left, size, List.range'_1_concat]
      rfl
  | .call _ args _, start => by
      rw [number, Expr.postorder, List.map_append, ids_numberArgs args, size,
        List.range'_1_concat]
      rfl
  | .binary _ left right _, start => by
      rw [number, Expr.postorder, List.map_append, List.map_append, ids_number left,
        ids_number right, List.range'_append_1, size, List.range'_1_concat, ← Nat.add_assoc]
      rfl
  | .unary _ operand _, start => by
      rw [number, Expr.postorder, List.map_append, ids_number operand, size,
        List.range'_1_concat]
      rfl

theorem ids_numberArgs : ∀ (args : List CaseExpr) (start : NodeId),
    (Expr.postorderArgs (numberArgs start args)).map Expr.id = List.range' start (sizeArgs args)
  | [], _ => rfl
  | e :: es, start => by
      rw [numberArgs, Expr.postorderArgs, List.map_append, ids_number e, ids_numberArgs es,
        List.range'_append_1, sizeArgs]

end

mutual

theorem length_records : ∀ e : CaseExpr, e.records.length = e.size
  | .first _ _ | .literal _ _ | .other _ _ => rfl
  | .dotted left _ _ => by rw [records, List.length_append, length_records left]; rfl
  | .call _ args _ => by rw [records, List.length_append, length_recordsArgs args]; rfl
  | .binary _ left right _ => by
      rw [records, List.length_append, List.length_append, length_records left,
        length_records right]
      rfl
  | .unary _ operand _ => by rw [records, List.length_append, length_records operand]; rfl

theorem length_recordsArgs : ∀ args : List CaseExpr, (recordsArgs args).length = sizeArgs args
  | [] => rfl
  | e :: es => by
      rw [recordsArgs, List.length_append, length_records e, length_recordsArgs es]
      rfl

end

theorem id_lt_of_mem {e : CaseExpr} {x : Expr} (h : x ∈ (e.number 0).postorder) :
    x.id < e.size := by
  have hid : x.id ∈ List.range' 0 e.size := by
    rw [← ids_number]
    exact List.mem_map_of_mem h
  have hlt := (List.mem_range'_1.mp hid).2
  rwa [Nat.zero_add] at hlt

end CaseExpr

/-! ## Facts -/

namespace FactTable

/-- The table of a list of facts: the identities are the places in the list. -/
def ofFacts (fs : List NodeFacts) (features : Features) : FactTable :=
  ⟨.ofList ((List.range fs.length).zip fs), features⟩

theorem ofFacts_concat (fs : List NodeFacts) (f : NodeFacts) (features : Features) :
    ofFacts (fs ++ [f]) features = (ofFacts fs features).insert fs.length f := by
  have hzip : (List.range (fs ++ [f]).length).zip (fs ++ [f]) =
      (List.range fs.length).zip fs ++ [(fs.length, f)] := by
    rw [List.length_append, List.length_singleton, List.range_succ,
      List.zip_append List.length_range]
    rfl
  unfold ofFacts FactTable.insert
  rw [hzip, Dict.ofList_concat]

theorem facts?_insert_self (t : FactTable) (id : NodeId) (f : NodeFacts) :
    (t.insert id f).facts? id = some f := t.facts.get?_insert_self id f

theorem facts?_insert_of_ne (t : FactTable) {id id' : NodeId} (h : id' ≠ id) (f : NodeFacts) :
    (t.insert id f).facts? id' = t.facts? id' :=
  t.facts.get?_insert_of_ne (fun hc => h (Std.LawfulEqCmp.eq_of_compare hc)) f

end FactTable

namespace Case

/-- The problem of a case, from the facts about its nodes. -/
def problem (c : Case) (base : Features) (function : DelegableFunction) (fs : List NodeFacts) :
    Problem where
  function := function
  expression := c.expression.number 0
  facts := .ofFacts fs (base ∪ c.features)
  table := c.table
  operator := c.operator

theorem resolve_eq (c : Case) (functions : FunctionRegistry) (base : Features) :
    c.resolve functions base = (do
      let f ← (functions.get c.function).mapError fun _ => .unknownFunction c.function
      let fs ← c.expression.records.mapM (c.resolveFacts functions)
      return c.problem base f fs) := rfl

theorem resolve_eq_ok {c : Case} {functions : FunctionRegistry} {base : Features} {p : Problem} :
    c.resolve functions base = .ok p ↔ ∃ f fs, functions.get c.function = .ok f ∧
      c.expression.records.mapM (c.resolveFacts functions) = .ok fs ∧
      c.problem base f fs = p := by
  rw [resolve_eq]
  simp only [Success.bind_eq_ok, Success.mapError_eq_ok]
  constructor
  · rintro ⟨f, hf, fs, hfs, h⟩
    exact ⟨f, fs, hf, hfs, Except.ok.inj h⟩
  · rintro ⟨f, fs, hf, hfs, rfl⟩
    exact ⟨f, hf, fs, hfs, rfl⟩

/-- What a problem takes over from its case. -/
theorem resolve_keeps {c : Case} {functions : FunctionRegistry} {base : Features} {p : Problem}
    (h : c.resolve functions base = .ok p) :
    p.expression = c.expression.number 0 ∧ p.table = c.table ∧ p.operator = c.operator := by
  obtain ⟨f, fs, -, -, rfl⟩ := resolve_eq_ok.mp h
  exact ⟨rfl, rfl, rfl⟩

end Case

/-! ## Analysis -/

theorem FunctionRegistry.get_eq_ok {r : FunctionRegistry} {name : String}
    {f : DelegableFunction} : r.get name = .ok f ↔ r.functions.get? name = some f := by
  unfold FunctionRegistry.get
  cases r.functions.get? name with
  | none => simp
  | some g => simp

theorem FunctionRegistry.mem_of_get {n : String} {f : DelegableFunction}
    (h : FunctionRegistry.builtins.get n = .ok f) : f ∈ DelegableFunction.builtins ∧ f.name = n := by
  have hmem : (n, f) ∈ DelegableFunction.builtins.map fun f => (f.name, f) :=
    Dict.mem_of_mem_ofList (Dict.mem_entries.mpr (get_eq_ok.mp h))
  obtain ⟨g, hg, hgf⟩ := List.mem_map.mp hmem
  obtain ⟨hname, rfl⟩ := Prod.mk.inj hgf
  exact ⟨hg, hname⟩

theorem FunctionRegistry.named_of_get {n : String} {f : DelegableFunction}
    (h : FunctionRegistry.builtins.get n = .ok f) : f.name ≠ "" :=
  (by decide : ∀ g ∈ DelegableFunction.builtins, g.name ≠ "") f (mem_of_get h).1

/-- What a case reports is the verdict on its problem, in a session of its own; all that is told
is what that session tells. -/
theorem Analysis.run_eq_hear {c : Case} {config : Config} {p : Problem} {op : Option Strategy}
    {v : Verdict} {q : Pass} (stamp : Nat → Stamp)
    (hc : c.resolve .builtins config.features = .ok p) (hop : p.strategy = .ok op)
    (hv : (p.scope.validateNode p.expression op).Gives {} v q) :
    Analysis.run stamp config c = .ok ⟨.ofVerdict p.function p.expression v q.rejections,
      (Session.tellings stamp p.function.name p.expression 0 v q).foldl
        (Ledger.hear config.telemetry.sinks) {}⟩ := by
  obtain ⟨f, fs, hf, -, rfl⟩ := Case.resolve_eq_ok.mp hc
  have hn : f.name ≠ "" := FunctionRegistry.named_of_get hf
  have hrun : Analysis.run stamp config c = ((({} : Session).validate
      ⟨config.telemetry.sinks, stamp⟩ (c.problem config.features f fs).scope
      (c.problem config.features f fs).expression op).mapError .violation >>=
        fun x => .ok ⟨x.1, x.2.ledger⟩) := by
    unfold Analysis.run
    rw [hc]
    show ((c.problem config.features f fs).strategy.mapError _ >>= _) = _
    rw [hop]
    rfl
  rw [hrun, Session.validate_eq hn hv]
  rfl

theorem Analysis.run_eq {c : Case} {config : Config} {p : Problem} {op : Option Strategy}
    {v : Verdict} {q : Pass} (stamp : Nat → Stamp)
    (hc : c.resolve .builtins config.features = .ok p) (hop : p.strategy = .ok op)
    (hv : (p.scope.validateNode p.expression op).Gives {} v q) :
    ∃ ledger, Analysis.run stamp config c =
      .ok ⟨.ofVerdict p.function p.expression v q.rejections, ledger⟩ :=
  ⟨_, Analysis.run_eq_hear stamp hc hop hv⟩

end Delegability
