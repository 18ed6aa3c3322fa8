/-
# `Delegability.Proofs.WholeRow` — a column, and the same column of the whole row

A column can be named bare, or as an access that starts at a name for the whole row:

    s₁…sₙ                 a bare name that stands for the path, in a source of its own
    R . s₁ . … . sₙ       accesses from `R`, the row of the facet that is handed down

The two forms come to the same question by different rules.  The first takes the facet from
the name, and is asked whether it waits; the second takes the facet of the scope, walks down
its left side to see where it starts, and puts the path together.  What is left once this is
done is one pair of checks, at two nodes (`validateNode_bareColumn`, `validateNode_rowAccess`):

    effects of the node, then what the facet says about the path

Checks that ask the same at two nodes agree (`Check.AgreesWith`): on the verdict, on its status,
and on what is said of it, but for the context of effects, which names the kind of the node.
-/
import Delegability.Proofs.Skeleton

namespace Delegability

/-! ## Accesses one after the other -/

namespace Expr

/-- `base.s₁.….sₙ`, where each access has its identity. -/
def accesses (base : Expr) (steps : List (NodeId × Name)) : Expr :=
  steps.foldl (fun e step => .dotted step.1 e step.2) base

theorem spineBottom_accesses (base : Expr) (steps : List (NodeId × Name)) :
    (base.accesses steps).spineBottom = base.spineBottom := by
  induction steps generalizing base with
  | nil => rfl
  | cons step steps ih => exact ih (.dotted step.1 base step.2)

end Expr

theorem FactTable.columnPath?_accesses (t : FactTable) (base : Expr)
    (steps : List (NodeId × Name)) :
    t.columnPath? (base.accesses steps) =
      (t.columnPath? base).map fun path => ⟨path.segments ++ steps.map Prod.snd⟩ := by
  induction steps generalizing base with
  | nil => simp [Expr.accesses]
  | cons step steps ih =>
      show t.columnPath? ((Expr.dotted step.1 base step.2).accesses steps) = _
      rw [ih, columnPath?, Option.map_map]
      congr 1
      funext path
      simp [ColumnPath.append]

/-! ## Checks that agree -/

/-- The same is said of two nodes; only where effects are the reason may the contexts differ. -/
structure Rejection.Alike (a b : Rejection) : Prop where
  status : a.status = b.status
  hint : a.hint = b.hint
  context : a.status ≠ .impureNode → a.context = b.context

inductive Verdict.Alike : Verdict → Verdict → Prop where
  | delegable : Alike .delegable .delegable
  | rejected {a b : Rejection} : a.Alike b → Alike (.rejected a) (.rejected b)

namespace Check

/-- In whatever passes, the two checks end in verdicts that are alike. -/
def AgreesWith (c d : Check Verdict) : Prop :=
  ∀ p p', ∃ v q w q', c.Gives p v q ∧ d.Gives p' w q' ∧ v.Alike w

theorem agrees_accept : accept.AgreesWith accept := by
  intro p p'
  exact ⟨.delegable, p, .delegable, p', rfl, rfl, .delegable⟩

theorem agrees_reject {a b : Rejection} (h : a.Alike b) : (reject a).AgreesWith (reject b) := by
  intro p p'
  exact ⟨.rejected a, p.noteRejection a, .rejected b, p'.noteRejection b, rfl, rfl, .rejected h⟩

theorem AgreesWith.andThen {c d c' d' : Check Verdict} (h : c.AgreesWith d)
    (h' : c'.AgreesWith d') : (andThen c c').AgreesWith (andThen d d') := by
  intro p p'
  obtain ⟨v, m, w, m', hv, hw, hvw⟩ := h p p'
  cases hvw with
  | delegable =>
      obtain ⟨v', q, w', q', hv', hw', halike⟩ := h' m m'
      exact ⟨v', q, w', q', gives_bind.mpr ⟨_, m, hv, hv'⟩, gives_bind.mpr ⟨_, m', hw, hw'⟩, halike⟩
  | rejected halike =>
      exact ⟨_, m, _, m', gives_bind.mpr ⟨_, m, hv, gives_pure.mpr ⟨rfl, rfl⟩⟩,
        gives_bind.mpr ⟨_, m', hw, gives_pure.mpr ⟨rfl, rfl⟩⟩, .rejected halike⟩

theorem AgreesWith.ite {c d c' d' : Check Verdict} {b : Prop} [Decidable b]
    (h : c.AgreesWith d) (h' : c'.AgreesWith d') :
    (if b then c else c').AgreesWith (if b then d else d') := by
  split
  · exact h
  · exact h'

end Check

namespace Scope

variable {s u : Scope} {id id' : NodeId} {k k' : NodeKind} {op : Option Strategy}

theorem purity_agrees (hfunction : u.function = s.function)
    (hfeatures : u.facts.features = s.facts.features)
    (hpure : u.facts.isPure id' = s.facts.isPure id) :
    (s.purity id k).AgreesWith (u.purity id' k') := by
  unfold purity
  rw [hpure, hfeatures]
  refine .ite (Check.agrees_reject ⟨rfl, ?_, fun h => absurd rfl h⟩) Check.agrees_accept
  rw [hfunction]

theorem supportRule_agrees (f : Facet) (path : ColumnPath) (required : CapabilitySet) :
    (s.supportRule id k f path required op).AgreesWith
      (u.supportRule id' k' f path required op) := by
  refine .ite ?_ (Check.agrees_reject ⟨rfl, rfl, fun _ => rfl⟩)
  cases op with
  | none => exact Check.agrees_accept
  | some op => exact .ite Check.agrees_accept (Check.agrees_reject ⟨rfl, rfl, fun _ => rfl⟩)

/-! ## The two forms -/

/-- A bare name that depends on the row, does not wait, and stands for a column of `source`. -/
structure IsBareColumn (s : Scope) (source : SourceMetadata) (path : ColumnPath) (id : NodeId) :
    Prop where
  row : s.facts.isRowScoped id = true
  sync : s.facts.isAsync id = false
  name : s.facts.name? id = some (.localColumn path (some source))

/-- An access that depends on the row, from a name for the whole row of `source` on; its left
side does not lead into an entity. -/
structure IsRowAccess (s : Scope) (source : SourceMetadata) (start : NodeId) (left : Expr)
    (id : NodeId) : Prop where
  row : s.facts.isRowScoped id = true
  whole : s.facts.name? start = some (.scopeRecord (some source))
  plain : ¬ (s.facts.isExempted start = true ∧ s.facts.isLambdaScoped start = true)
  direct : (s.facts.type? left.id).bind ValueType.expansion? = none

theorem validateNode_bareColumn {source : SourceMetadata} {path : ColumnPath}
    (h : s.IsBareColumn source path id) (name : Name) :
    s.validateNode (.first id name) op =
      Check.andThen (s.purity id .firstName)
        (s.supportRule id .firstName (source.facetFor s.function.requires) path
          s.function.requires op) := by
  show Check.andThen (s.readiness id .firstName) (if s.facts.isRowScoped id then _ else _) = _
  rw [readiness_of_sync h.sync, h.row]
  -- the name has metadata and no entity
  show Check.andThen _ (s.columnRule id name op s.function.requires) = _
  unfold columnRule
  rw [h.row, h.name]
  rfl

theorem isOuterRecord_accesses {base : Expr} (h : s.isOuterRecord base = false)
    (steps : List (NodeId × Name)) : s.isOuterRecord (base.accesses steps) = false := by
  induction steps generalizing base with
  | nil => exact h
  | cons step steps ih => exact @ih (.dotted step.1 base step.2) rfl

/-- An access from a bare name that is not exempt: its effects, and then where it leads. -/
theorem validateNode_resolvable {start : NodeId} {first right : Name} {left : Expr}
    (hrow : s.facts.isRowScoped id = true) (hstart : left.spineBottom = .first start first)
    (hplain : ¬ (s.facts.isExempted start = true ∧ s.facts.isLambdaScoped start = true)) :
    s.validateNode (.dotted id left right) op =
      Check.andThen (s.purity id .dottedName) (s.resolvedAccess id left right op) := by
  have hshape : (s.judge left).shape = pure .resolvable := by
    rw [judge_shape, hstart]
    show pure (if s.facts.isExempted start && s.facts.isLambdaScoped start then Shape.exempted
      else .resolvable) = _
    rw [if_neg (by simpa using hplain)]
  show (if s.facts.isRowScoped id then s.accessRule id left right (s.judge left).shape op
    else _) = _
  rw [hrow, hshape]
  rfl

/-- From a name for a whole row, the facet is asked for the path of the names that follow. -/
theorem resolvedAccess_of_row {start : NodeId} {whole right : Name} {steps : List (NodeId × Name)}
    {source? : Option SourceMetadata} (hwhole : s.facts.name? start = some (.scopeRecord source?))
    (hinner : s.isOuterRecord ((Expr.first start whole).accesses steps) = false)
    (hdirect : (s.facts.type? ((Expr.first start whole).accesses steps).id).bind
      ValueType.expansion? = none) :
    s.resolvedAccess id ((Expr.first start whole).accesses steps) right op =
      s.supportRule id .dottedName s.facet ⟨steps.map Prod.snd ++ [right]⟩
        s.function.requires op := by
  have hpath : s.facts.columnPath? (.dotted id ((Expr.first start whole).accesses steps) right) =
      some ⟨steps.map Prod.snd ++ [right]⟩ := by
    rw [FactTable.columnPath?, FactTable.columnPath?_accesses, FactTable.columnPath?, hwhole]
    rfl
  unfold resolvedAccess
  rw [hinner, hdirect, hpath]
  rfl

theorem validateNode_rowAccess {source : SourceMetadata} {start : NodeId} {whole right : Name}
    {steps : List (NodeId × Name)}
    (h : s.IsRowAccess source start ((Expr.first start whole).accesses steps) id) :
    s.validateNode (.dotted id ((Expr.first start whole).accesses steps) right) op =
      Check.andThen (s.purity id .dottedName)
        (s.supportRule id .dottedName s.facet ⟨steps.map Prod.snd ++ [right]⟩
          s.function.requires op) := by
  have hinner : s.isOuterRecord ((Expr.first start whole).accesses steps) = false := by
    apply isOuterRecord_accesses
    simp [isOuterRecord, h.whole]
  rw [validateNode_resolvable h.row (Expr.spineBottom_accesses _ steps) h.plain,
    resolvedAccess_of_row h.whole hinner h.direct]

end Scope

/-- **A column of the whole row.**  Under one function and the same features, the bare name of a
column and the access to it from the whole row are judged alike, if they are alike in effects and
the access is judged by the facet that the function selects. -/
theorem Session.bareColumn_agrees_with_rowAccess {source : SourceMetadata} {s u : Scope}
    {id id' start : NodeId} {name whole right : Name} {steps : List (NodeId × Name)}
    {op : Option Strategy} (hn : s.function.name ≠ "") (hfunction : u.function = s.function)
    (hfeatures : u.facts.features = s.facts.features)
    (hfacet : u.facet = source.facetFor s.function.requires)
    (hpure : u.facts.isPure id' = s.facts.isPure id)
    (hx : s.IsBareColumn source ⟨steps.map Prod.snd ++ [right]⟩ id)
    (hy : u.IsRowAccess source start ((Expr.first start whole).accesses steps) id')
    (session session' : Session) (t t' : Tracker) :
    ∃ report after report' after',
      session.validate t s (.first id name) op = .ok (report, after) ∧
      session'.validate t' u (.dotted id' ((Expr.first start whole).accesses steps) right) op =
        .ok (report', after') ∧
      report.delegable = report'.delegable ∧ report.status? = report'.status? ∧
      List.Forall₂ Rejection.Alike report.rejections report'.rejections := by
  have hn' : u.function.name ≠ "" := hfunction ▸ hn
  obtain ⟨v, p, hv, hrej, -⟩ := Session.validateNode_once session s (.first id name) op
  obtain ⟨w, p', hw, hrej', -⟩ := Session.validateNode_once session' u
    (.dotted id' ((Expr.first start whole).accesses steps) right) op
  have hagree : (s.validateNode (.first id name) op).AgreesWith
      (u.validateNode (.dotted id' ((Expr.first start whole).accesses steps) right) op) := by
    rw [Scope.validateNode_bareColumn hx, Scope.validateNode_rowAccess hy, hfacet, hfunction]
    exact (Scope.purity_agrees hfunction hfeatures hpure).andThen (Scope.supportRule_agrees _ _ _)
  obtain ⟨v', q, w', q', hv', hw', halike⟩ := hagree session.newPass session'.newPass
  obtain ⟨rfl, rfl⟩ := hv.det hv'
  obtain ⟨rfl, rfl⟩ := hw.det hw'
  refine ⟨_, _, _, _, Session.validate_eq hn hv, Session.validate_eq hn' hw, ?_⟩
  rw [hrej, hrej']
  cases halike with
  | delegable => exact ⟨rfl, rfl, .nil⟩
  | rejected hr => exact ⟨rfl, congrArg some hr.status, .cons hr .nil⟩

/-! ## A path of two steps

`Address.City`, bare and from the whole row, in a source whose column may be matched and not
compared. -/

namespace Sample

def address : Name := ⟨"Address", by decide⟩

def row : Name := ⟨"Row", by decide⟩

def residence : SourceMetadata where
  filter :=
    { columns := .ofList [(⟨[address, city]⟩, ⟨.single .filter, .single .startsWith⟩)] }

def residenceFacts : FactTable where
  facts := .ofList
    [(0, { name? := some (.scopeRecord (some residence)) }), (1, {}), (2, { rowScoped := true }),
     (3, { rowScoped := true, name? := some (.localColumn ⟨[address, city]⟩ (some residence)) })]

def residents : Scope := ⟨.filter, residenceFacts, residence.filter⟩

theorem residence_judged_alike :
    residents.IsBareColumn residence ⟨[address, city]⟩ 3 ∧
      residents.IsRowAccess residence 0 (.dotted 1 (.first 0 row) address) 2 ∧
      ∃ report after report' after',
        ({} : Session).validate silent residents (.first 3 city) (some (.binary .equal)) =
          .ok (report, after) ∧
        ({} : Session).validate silent residents
          (.dotted 2 (.dotted 1 (.first 0 row) address) city) (some (.binary .equal)) =
          .ok (report', after') ∧
        report.delegable = false ∧ report'.delegable = false ∧
        report.status? = report'.status? ∧
        List.Forall₂ Rejection.Alike report.rejections report'.rejections := by
  have hx : residents.IsBareColumn residence ⟨[address, city]⟩ 3 := ⟨rfl, rfl, rfl⟩
  have hy : residents.IsRowAccess residence 0 (.dotted 1 (.first 0 row) address) 2 :=
    ⟨rfl, rfl, by decide, rfl⟩
  obtain ⟨report, after, report', after', h, h', hsame, hstatus, halike⟩ :=
    @Session.bareColumn_agrees_with_rowAccess residence residents residents 3 2 0 city row city
      [(1, address)] (some (.binary .equal)) (by decide) rfl rfl rfl rfl hx hy {} {} silent silent
  have hrun : (({} : Session).validate silent residents (.first 3 city)
      (some (.binary .equal))).map (·.1.delegable) = .ok false := rfl
  have hd : report.delegable = false := by
    rw [h] at hrun
    exact Except.ok.inj hrun
  exact ⟨hx, hy, report, after, report', after', h, h', hd, hsame ▸ hd, hstatus, halike⟩

end Sample

end Delegability
