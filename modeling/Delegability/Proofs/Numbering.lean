/-
# `Delegability.Proofs.Numbering` — every node of a case, and what is recorded about it

A case is resolved in two walks, one that numbers the nodes and one that resolves what is said
about them.  What ties the two together is the order in which they meet the nodes:

    nodes of the case          e₀    e₁    …    eₙ₋₁      each after the nodes below it
    nodes of the formula       x₀    x₁    …    xₙ₋₁      xᵢ has the shape of eᵢ and the identity i
    facts of the table         f₀    f₁    …    fₙ₋₁      recorded under i, as eᵢ says

If one of the walks took the nodes in another order, or left one out, facts would be recorded
about a node that is not the one they were said of.  `Case.resolve_records_in_order` is the three
rows together.
-/
import Mathlib.Data.List.Induction
import Delegability.Proofs.Dotted
import Delegability.Proofs.Resolution
import Delegability.Proofs.Soundness

namespace Delegability

/-! ## The nodes of a case -/

namespace CaseExpr

mutual

/-- All nodes, each after the nodes below it, left before right. -/
def postorder : CaseExpr → List CaseExpr
  | .first name facts => [.first name facts]
  | .dotted left right facts => left.postorder ++ [.dotted left right facts]
  | .call head args facts => postorderArgs args ++ [.call head args facts]
  | .binary op left right facts =>
    left.postorder ++ right.postorder ++ [.binary op left right facts]
  | .unary op operand facts => operand.postorder ++ [.unary op operand facts]
  | .literal value facts => [.literal value facts]
  | .other description facts => [.other description facts]

/-- The nodes of arguments. -/
def postorderArgs : List CaseExpr → List CaseExpr
  | [] => []
  | e :: es => e.postorder ++ postorderArgs es

end

/-- What is said about the root. -/
def facts : CaseExpr → CaseFacts
  | .first _ facts | .dotted _ _ facts | .call _ _ facts | .binary _ _ _ facts | .unary _ _ facts
  | .literal _ facts | .other _ facts => facts

/-- What is to be recorded about the root. -/
def record : CaseExpr → NodeRecord
  | .call head _ facts => { facts, head? := some (madeName head) }
  | e => { facts := e.facts }

theorem facts_record (e : CaseExpr) : e.record.facts = e.facts := by
  cases e <;> rfl

mutual

/-- The records are those of the nodes, in their order. -/
theorem records_eq_map : ∀ e : CaseExpr, e.records = e.postorder.map record
  | .first _ _ | .literal _ _ | .other _ _ => rfl
  | .dotted left _ _ => by
      rw [records, postorder, List.map_append, records_eq_map left]
      rfl
  | .call _ args _ => by
      rw [records, postorder, List.map_append, recordsArgs_eq_map args]
      rfl
  | .binary _ left right _ => by
      rw [records, postorder, List.map_append, List.map_append, records_eq_map left,
        records_eq_map right]
      rfl
  | .unary _ operand _ => by
      rw [records, postorder, List.map_append, records_eq_map operand]
      rfl

theorem recordsArgs_eq_map : ∀ args : List CaseExpr,
    recordsArgs args = (postorderArgs args).map record
  | [] => rfl
  | e :: es => by
      rw [recordsArgs, postorderArgs, List.map_append, records_eq_map e, recordsArgs_eq_map es]

end

theorem length_postorder (e : CaseExpr) : e.postorder.length = e.size := by
  rw [← length_records, records_eq_map, List.length_map]

/-! ## The nodes of its formula -/

/-- The formula is made of the same nodes in the same places.  Texts that should be names have
been made names; nothing is said about identities. -/
inductive SameShape : CaseExpr → Expr → Prop
  | first {name : String} {facts : CaseFacts} {id : NodeId} :
      SameShape (.first name facts) (.first id (madeName name))
  | dotted {left : CaseExpr} {right : String} {facts : CaseFacts} {id : NodeId} {left' : Expr} :
      SameShape left left' →
      SameShape (.dotted left right facts) (.dotted id left' (madeName right))
  | call {head : String} {args : List CaseExpr} {facts : CaseFacts} {id : NodeId}
      {args' : List Expr} : List.Forall₂ SameShape args args' →
      SameShape (.call head args facts) (.call id (madeName head) args')
  | binary {op : BinaryOp} {left right : CaseExpr} {facts : CaseFacts} {id : NodeId}
      {left' right' : Expr} : SameShape left left' → SameShape right right' →
      SameShape (.binary op left right facts) (.binary id op left' right')
  | unary {op : UnaryOp} {operand : CaseExpr} {facts : CaseFacts} {id : NodeId}
      {operand' : Expr} : SameShape operand operand' →
      SameShape (.unary op operand facts) (.unary id op operand')
  | literal {value : Json.Value} {facts : CaseFacts} {id : NodeId} :
      SameShape (.literal value facts) (.literal id value)
  | other {description : String} {facts : CaseFacts} {id : NodeId} :
      SameShape (.other description facts) (.other id description)

mutual

theorem sameShape_number : ∀ (e : CaseExpr) (start : NodeId), e.SameShape (e.number start)
  | .first _ _, _ => .first
  | .literal _ _, _ => .literal
  | .other _ _, _ => .other
  | .dotted left _ _, start => .dotted (sameShape_number left start)
  | .call _ args _, start => .call (sameShape_numberArgs args start)
  | .binary _ left right _, start =>
      .binary (sameShape_number left start) (sameShape_number right (start + left.size))
  | .unary _ operand _, start => .unary (sameShape_number operand start)

theorem sameShape_numberArgs : ∀ (args : List CaseExpr) (start : NodeId),
    List.Forall₂ SameShape args (numberArgs start args)
  | [], _ => .nil
  | e :: es, start => .cons (sameShape_number e start) (sameShape_numberArgs es (start + e.size))

end

mutual

/-- Node by node, the formula is met in the order of the case. -/
theorem sameShape_postorder : ∀ (e : CaseExpr) (start : NodeId),
    List.Forall₂ SameShape e.postorder (e.number start).postorder
  | .first name facts, start => .cons (sameShape_number (.first name facts) start) .nil
  | .literal value facts, start => .cons (sameShape_number (.literal value facts) start) .nil
  | .other text facts, start => .cons (sameShape_number (.other text facts) start) .nil
  | .dotted left right facts, start =>
      List.rel_append (sameShape_postorder left start)
        (.cons (sameShape_number (.dotted left right facts) start) .nil)
  | .call head args facts, start =>
      List.rel_append (sameShape_postorderArgs args start)
        (.cons (sameShape_number (.call head args facts) start) .nil)
  | .binary op left right facts, start =>
      List.rel_append
        (List.rel_append (sameShape_postorder left start)
          (sameShape_postorder right (start + left.size)))
        (.cons (sameShape_number (.binary op left right facts) start) .nil)
  | .unary op operand facts, start =>
      List.rel_append (sameShape_postorder operand start)
        (.cons (sameShape_number (.unary op operand facts) start) .nil)

theorem sameShape_postorderArgs : ∀ (args : List CaseExpr) (start : NodeId),
    List.Forall₂ SameShape (postorderArgs args) (Expr.postorderArgs (numberArgs start args))
  | [], _ => .nil
  | e :: es, start =>
      List.rel_append (sameShape_postorder e start) (sameShape_postorderArgs es (start + e.size))

end

/-- The root comes last. -/
theorem id_number (e : CaseExpr) (start : NodeId) : (e.number start).id + 1 = start + e.size := by
  cases e with
  | binary op left right facts =>
      show start + left.size + right.size + 1 = start + (left.size + right.size + 1)
      rw [Nat.add_assoc start]
      rfl
  | first | dotted | call | unary | literal | other => rfl

end CaseExpr

/-! ## What is recorded -/

namespace FactTable

variable (fs : List NodeFacts) (features : Features)

theorem keys_ofFacts : (ofFacts fs features).facts.keys = List.range fs.length := by
  have hkeys : ((List.range fs.length).zip fs).map Prod.fst = List.range fs.length :=
    List.map_fst_zip (Nat.le_of_eq List.length_range)
  have hsorted : ((List.range fs.length).zip fs).Pairwise fun a b => compare a.1 b.1 = .lt := by
    rw [← List.pairwise_map (R := fun i j => compare i j = .lt), hkeys]
    exact List.pairwise_lt_range.imp Nat.compare_eq_lt.mpr
  show (Dict.ofList ((List.range fs.length).zip fs)).entries.map Prod.fst = _
  rw [Dict.entries_ofList hsorted, hkeys]

/-- Each of the facts stands under its place in the list. -/
theorem facts?_ofFacts (i : NodeId) : (ofFacts fs features).facts? i = fs[i]? := by
  induction fs using List.reverseRecOn with
  | nil => rfl
  | append_singleton fs f ih =>
      rw [ofFacts_concat]
      by_cases hi : i = fs.length
      · rw [hi, facts?_insert_self, List.getElem?_concat_length]
      · rw [facts?_insert_of_ne _ hi, ih]
        rcases Nat.lt_or_gt_of_ne hi with hlt | hgt
        · rw [List.getElem?_append_left hlt]
        · have hout : (fs ++ [f]).length ≤ i := by
            rw [List.length_append]
            exact hgt
          rw [List.getElem?_eq_none hout, List.getElem?_eq_none (Nat.le_of_lt hgt)]

end FactTable

namespace Case

/-- What a type of the case stands for: the same type, an entity being one of the case's. -/
inductive TypeMeans (c : Case) : CaseType → ValueType → Prop
  | optionSet : TypeMeans c .optionSet .optionSet
  | optionSetValue : TypeMeans c .optionSetValue .optionSetValue
  | view : TypeMeans c .view .view
  | viewValue : TypeMeans c .viewValue .viewValue
  | record : TypeMeans c (.record none) (.record none)
  | expansion {x : CaseExpansion} {name : Name} : name.text = x.name →
      TypeMeans c (.record (some x)) (.record (some ⟨x.entity, name, ⟨c.entities⟩⟩))
  | other : TypeMeans c .other .other

/-- What a name of the case stands for.  One of an outer evaluation has no source, any other has
the table of the case. -/
inductive NameMeans (c : Case) : CaseName → NameInfo → Prop
  | outerColumn {path : String} {p : ColumnPath} : ColumnPath.parse path = .ok p →
      NameMeans c (.localColumn path true) (.localColumn p none)
  | column {path : String} {p : ColumnPath} : ColumnPath.parse path = .ok p →
      NameMeans c (.localColumn path false) (.localColumn p (some c.table))
  | outerRecord : NameMeans c (.scopeRecord true) (.scopeRecord none)
  | scopeRecord : NameMeans c (.scopeRecord false) (.scopeRecord (some c.table))
  | expansion {x : CaseExpansion} {name : Name} : name.text = x.name →
      NameMeans c (.entityExpansion x) (.entityExpansion name ⟨x.entity, name, ⟨c.entities⟩⟩)
  | other : NameMeans c .other .other

/-- The facts are what the case says about the node, with its type and its name resolved, and with
the function that it calls if it is a call of one. -/
structure Describes (c : Case) (functions : FunctionRegistry) (e : CaseExpr) (f : NodeFacts) :
    Prop where
  rowScoped : f.rowScoped = e.facts.rowScoped
  isAsync : f.isAsync = e.facts.isAsync
  isPure : f.isPure = !e.facts.impure
  exempted : f.exempted = e.facts.exempted
  lambdaScoped : f.lambdaScoped = e.facts.lambdaScoped
  blockScopedConstant : f.blockScopedConstant = e.facts.blockScopedConstant
  type : Option.Rel c.TypeMeans e.facts.type? f.type?
  name : Option.Rel c.NameMeans e.facts.name? f.name?
  callee : ∀ g, f.callee? = some g ↔ ∃ head args facts, e = .call head args facts ∧
    functions.get (Name.makeValid head).1.text = .ok g

variable {c : Case} {functions : FunctionRegistry}

theorem expansion_eq_ok {x : CaseExpansion} {y : Expansion} (h : c.expansion x = .ok y) :
    ∃ name, name.text = x.name ∧ y = ⟨x.entity, name, ⟨c.entities⟩⟩ := by
  unfold expansion at h
  split at h
  next name hname =>
    cases h
    exact ⟨name, Name.text_of_ofText hname, rfl⟩
  next => cases h

theorem typeMeans_of_resolveType {t : CaseType} {v : ValueType} (h : c.resolveType t = .ok v) :
    c.TypeMeans t v := by
  cases t with
  | record x =>
      cases x with
      | none =>
          cases h
          exact .record
      | some x =>
          obtain ⟨y, hy, rfl⟩ := Success.map_eq_ok.mp h
          obtain ⟨name, hname, rfl⟩ := expansion_eq_ok hy
          exact .expansion hname
  | optionSet | optionSetValue | view | viewValue | other =>
      cases h
      constructor

theorem nameMeans_of_resolveName {n : CaseName} {i : NameInfo} (h : c.resolveName n = .ok i) :
    c.NameMeans n i := by
  cases n with
  | localColumn path outer =>
      rw [resolveName] at h
      split at h
      next p hp =>
        cases h
        cases outer with
        | true => exact .outerColumn hp
        | false => exact .column hp
      next => cases h
  | scopeRecord outer =>
      cases h
      cases outer with
      | true => exact .outerRecord
      | false => exact .scopeRecord
  | entityExpansion x =>
      obtain ⟨y, hy, rfl⟩ := Success.map_eq_ok.mp h
      obtain ⟨name, hname, rfl⟩ := expansion_eq_ok hy
      exact .expansion hname
  | other =>
      cases h
      exact .other

theorem rel_of_resolveOption {α β : Type} {f : α → Except CaseFault β} {R : α → β → Prop}
    {a? : Option α} {b? : Option β} (hR : ∀ a b, f a = .ok b → R a b)
    (h : resolveOption f a? = .ok b?) : Option.Rel R a? b? := by
  cases a? with
  | none =>
      cases h
      exact .none
  | some a =>
      obtain ⟨b, hb, rfl⟩ := Success.map_eq_ok.mp h
      exact .some (hR a b hb)

theorem callee_record (e : CaseExpr) (g : DelegableFunction) :
    e.record.head?.bind (callee? functions) = some g ↔
      ∃ head args facts, e = .call head args facts ∧
        functions.get (Name.makeValid head).1.text = .ok g := by
  cases e with
  | call head args facts =>
      constructor
      · intro h
        exact ⟨head, args, facts, rfl, FunctionRegistry.get_eq_ok.mpr h⟩
      · rintro ⟨_, _, _, ⟨⟩, h⟩
        exact FunctionRegistry.get_eq_ok.mp h
  | first | dotted | binary | unary | literal | other =>
      refine iff_of_false (fun h => by cases h) ?_
      rintro ⟨_, _, _, ⟨⟩, -⟩

theorem describes_of_resolveFacts {e : CaseExpr} {f : NodeFacts}
    (h : c.resolveFacts functions e.record = .ok f) : c.Describes functions e f := by
  obtain ⟨type?, htype, h⟩ := Success.bind_eq_ok.mp h
  obtain ⟨name?, hname, h⟩ := Success.bind_eq_ok.mp h
  rw [e.facts_record] at htype hname
  cases h
  constructor
  case type => exact rel_of_resolveOption (fun _ _ => typeMeans_of_resolveType) htype
  case name => exact rel_of_resolveOption (fun _ _ => nameMeans_of_resolveName) hname
  case callee => exact callee_record e
  all_goals rw [← e.facts_record]

/-- **Every node is recorded as itself.**  The formula of a resolved case has the shape of the
case.  Its identities are the numbers from zero on, each once; they are given to each node after
the nodes below it and to the root last.  Facts are recorded under these and no others, and under
the identity of a node stand those that the case says about that node.  With fewer than `2 ^ 32`
nodes every identity fits a word of 32 bits. -/
theorem resolve_records_in_order {c : Case} {functions : FunctionRegistry} {base : Features}
    {p : Problem} (h : c.resolve functions base = .ok p) :
    c.expression.SameShape p.expression ∧
    p.expression.postorder.map Expr.id = List.range c.expression.postorder.length ∧
    p.expression.id + 1 = c.expression.postorder.length ∧
    p.facts.facts.keys = List.range c.expression.postorder.length ∧
    ∀ i e, c.expression.postorder[i]? = some e →
      ∃ x f, p.expression.postorder[i]? = some x ∧ x.id = i ∧ e.SameShape x ∧
        p.facts.facts? i = some f ∧ c.Describes functions e f := by
  obtain ⟨function, fs, -, hfs, rfl⟩ := resolve_eq_ok.mp h
  rw [c.expression.length_postorder]
  have hlength : fs.length = c.expression.size := by
    rw [Success.length_of_mapM hfs, CaseExpr.length_records]
  have hids : (c.expression.number 0).postorder.map Expr.id = List.range c.expression.size := by
    rw [CaseExpr.ids_number, List.range_eq_range']
  refine ⟨c.expression.sameShape_number 0, hids, ?_, ?_, ?_⟩
  · exact (c.expression.id_number 0).trans (Nat.zero_add _)
  · rw [← hlength]
    exact FactTable.keys_ofFacts fs _
  · intro i e he
    have hdescribes : List.Forall₂ (c.Describes functions) c.expression.postorder fs := by
      rw [CaseExpr.records_eq_map, Success.mapM_eq_ok, List.forall₂_map_left_iff] at hfs
      exact hfs.imp fun _ _ => describes_of_resolveFacts
    obtain ⟨x, hx, hshape⟩ := Success.exists_getElem?_of_forall₂
      (c.expression.sameShape_postorder 0) he
    obtain ⟨f, hf, hdescribed⟩ := Success.exists_getElem?_of_forall₂ hdescribes he
    have hid : x.id = i := by
      have hi : i < c.expression.size := by
        rw [← c.expression.length_postorder]
        exact (List.getElem?_eq_some_iff.mp he).1
      have hmap := congrArg (·[i]?) hids
      rw [List.getElem?_map, hx, List.getElem?_range hi] at hmap
      exact Option.some.inj hmap
    exact ⟨x, f, hx, hid, hshape, (FactTable.facts?_ofFacts fs _ i).trans hf, hdescribed⟩

end Case

/-! ## A match in a case

`StartsWith(City, Start) And Later()`, where `Start` comes from an outer evaluation and has effects,
and nobody knows what `Later` is. -/

namespace Sample

def matching : Case where
  function := "Filter"
  table := { filter := facet }
  expression := .binary .and
    (.call "StartsWith"
      [.first "City" { rowScoped := true, name? := some (.localColumn "City" false) },
       .first "Start" { impure := true, name? := some (.localColumn "Start" true) }]
      { rowScoped := true })
    (.call "Later" [] { isAsync := true }) { rowScoped := true }

theorem matching_recorded_in_order :
    ∃ p, matching.resolve .builtins {} = .ok p ∧
      p.expression.postorder.map Expr.id = [0, 1, 2, 3, 4] ∧ p.expression.id = 4 ∧
      p.facts.facts.keys = [0, 1, 2, 3, 4] ∧
      (∃ f, p.facts.facts? 1 = some f ∧ f.isPure = false ∧
        ∃ path, f.name? = some (.localColumn path none)) ∧
      (∃ f, p.facts.facts? 2 = some f ∧ f.callee? = some .startsWith) ∧
      ∃ f, p.facts.facts? 3 = some f ∧ f.isAsync = true ∧ f.callee? = none := by
  obtain ⟨p, hp⟩ : ∃ p, matching.resolve .builtins {} = .ok p := ⟨_, rfl⟩
  obtain ⟨-, hids, hroot, hkeys, hnodes⟩ := Case.resolve_records_in_order hp
  refine ⟨p, hp, hids, Nat.succ.inj hroot, hkeys, ?_, ?_, ?_⟩
  · obtain ⟨-, f, -, -, -, hf, hdescribed⟩ := hnodes 1 _ rfl
    refine ⟨f, hf, hdescribed.isPure, ?_⟩
    have hname := hdescribed.name
    generalize f.name? = name? at hname
    cases hname with
    | some hmeans =>
        cases hmeans
        exact ⟨_, rfl⟩
  · obtain ⟨-, f, -, -, -, hf, hdescribed⟩ := hnodes 2 _ rfl
    exact ⟨f, hf, (hdescribed.callee .startsWith).mpr ⟨_, _, _, rfl, rfl⟩⟩
  · obtain ⟨-, f, -, -, -, hf, hdescribed⟩ := hnodes 3 _ rfl
    refine ⟨f, hf, hdescribed.isAsync, Option.eq_none_iff_forall_ne_some.mpr fun g hg => ?_⟩
    obtain ⟨head, args, facts, hcall, hget⟩ := (hdescribed.callee g).mp hg
    cases hcall
    cases hget

end Sample

end Delegability
