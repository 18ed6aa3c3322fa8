/-
# `Delegability.Proofs.EntityAccess` — columns of another entity

Where the left side of an access refers into another entity, the column belongs to that entity:

    L . r      L : a reference into E
      └─▸ the column of E that goes by r, in the facet of E that the function selects

Neither the facet of the scope nor the other facet of E is asked.  The column may be written by
either of its names, since a display name is translated first (`Entity.LeadsTo`); a name that is
no display name, or one that is translated to something that cannot be a name, counts as it
stands.  So the two names of a column give not only one verdict but one check
(`validateNode_entityAccess`), and what is said of the column is said under its logical name.
-/
import Delegability.Proofs.DisplayNames
import Delegability.Proofs.Dotted
import Delegability.Proofs.WholeRow

namespace Delegability

/-! ## Either name of a column -/

/-- The column that a name after the dot stands for: the one with this display name, if that is
a name, and otherwise the name itself. -/
def Entity.LeadsTo (e : Entity) (right column : Name) : Prop :=
  e.displayNames.logicalFor? right.text = some column.text ∨
    column = right ∧ ∀ n : Name, e.displayNames.logicalFor? right.text ≠ some n.text

namespace Scope

theorem leadsTo_iff {e : Entity} {right column : Name} :
    e.LeadsTo right column ↔ column = entityColumn e right := by
  unfold Entity.LeadsTo entityColumn
  cases hl : e.displayNames.logicalFor? right.text with
  | none => simp
  | some logical =>
      simp only [Option.map_some, Option.some.injEq]
      cases hname : Name.ofText logical with
      | ok n =>
          have htext : n.text = logical := Name.text_of_ofText hname
          subst htext
          constructor
          · rintro (h | ⟨-, h⟩)
            · exact (Name.eq_of_text h).symm
            · exact absurd rfl (h n)
          · rintro rfl
            exact Or.inl rfl
      | error fault =>
          have hnone : ∀ n : Name, logical ≠ n.text := by
            rintro n rfl
            rw [Name.ofText_text] at hname
            cases hname
          constructor
          · rintro (h | ⟨h, -⟩)
            · exact absurd h (hnone column)
            · exact h
          · intro h
            exact Or.inr ⟨h, fun n hs => hnone n (Option.some.inj hs)⟩

/-- Both names of a column lead to it, unless the logical one is the display name of another. -/
theorem entityColumn_display {e : Entity} {logical display : Name}
    (h : e.displayNames.logicalFor? display.text = some logical.text) :
    entityColumn e display = logical :=
  (leadsTo_iff.mp (Or.inl h)).symm

theorem entityColumn_logical {e : Entity} {logical : Name}
    (h : ∀ l, e.displayNames.logicalFor? logical.text = some l → l = logical.text) :
    entityColumn e logical = logical := by
  refine (leadsTo_iff.mp ?_).symm
  cases hl : e.displayNames.logicalFor? logical.text with
  | none => exact Or.inr ⟨rfl, by simp [hl]⟩
  | some l => exact Or.inl (by rw [hl, h l hl])

/-! ## The access -/

/-- An access that depends on the row and has no effects that matter.  Its left side starts at a
bare name that is not exempt, is not a row of an outer evaluation, and refers into the entity. -/
structure IsEntityAccess (s : Scope) (e : Entity) (left : Expr) (id : NodeId) : Prop where
  row : s.facts.isRowScoped id = true
  pure : s.IsPure id
  start : ∃ start first, left.spineBottom = .first start first ∧
    ¬ (s.facts.isExempted start = true ∧ s.facts.isLambdaScoped start = true)
  inner : s.isOuterRecord left = false
  entity : ∃ x, (s.facts.type? left.id).bind ValueType.expansion? = some x ∧ x.entity? = some e

variable {s : Scope} {e : Entity} {left : Expr} {id : NodeId} {right : Name} {op : Option Strategy}

/-- All that is asked of the access is asked of the entity, about one column. -/
theorem validateNode_entityAccess (h : s.IsEntityAccess e left id) :
    s.validateNode (.dotted id left right) op =
      s.supportRule id .dottedName (e.source.facetFor s.function.requires)
        (.ofName (entityColumn e right)) s.function.requires op := by
  obtain ⟨start, first, hstart, hplain⟩ := h.start
  obtain ⟨x, hx, he⟩ := h.entity
  rw [validateNode_resolvable h.row hstart hplain, purity_of_pure h.pure]
  show s.resolvedAccess id left right op = _
  unfold resolvedAccess
  rw [h.inner, hx]
  simp only [he]
  rfl

theorem IsEntityAccess.delegates_iff (h : s.IsEntityAccess e left id) (hn : s.function.name ≠ "")
    (session : Session) (t : Tracker) :
    session.Delegates t s (.dotted id left right) op ↔
      (e.source.facetFor s.function.requires).Supports (.ofName (entityColumn e right))
        s.function.requires (op.map Strategy.requires) := by
  rw [Session.delegates_iff, validateNode_entityAccess h]
  simp only [supportRule_accepts]
  constructor
  · rintro ⟨-, q, hs, -⟩
    exact hs
  · intro hs
    exact ⟨hn, session.newPass, hs, rfl⟩

end Scope

theorem ColumnPath.dotted_ofName (n : Name) : (ColumnPath.ofName n).dotted = n.text :=
  String.intercalate_singleton

theorem Scope.IsEntityAccess.rejections_ofColumn {s : Scope} {e : Entity} {left : Expr}
    {id : NodeId} {right : Name} {op : Option Strategy} {session after : Session} {t : Tracker}
    {report : Report} (h : s.IsEntityAccess e left id) (hn : s.function.name ≠ "")
    (hrun : session.validate t s (.dotted id left right) op = .ok (report, after)) :
    ∀ r ∈ report.rejections, r.OfColumn id .dottedName (entityColumn e right).text op := by
  have hrule : s.validateNode (.dotted id left right) op = _ := validateNode_entityAccess h
  rcases s.supportRule_cases id .dottedName (e.source.facetFor s.function.requires)
      (.ofName (entityColumn e right)) s.function.requires op with hacc | ⟨r', hreject, hcolumn⟩
  · have haccepts : (s.validateNode (.dotted id left right) op).Accepts session.newPass
        session.newPass := by
      rw [hrule, hacc]
      rfl
    cases hrun.symm.trans (Session.validate_eq hn haccepts)
    exact fun r hr => absurd hr List.not_mem_nil
  · obtain ⟨after', hrejected⟩ := Session.validate_of_reject hn (hrule.trans hreject)
    cases hrun.symm.trans hrejected
    intro r hr
    rw [List.mem_singleton.mp hr, ← ColumnPath.dotted_ofName]
    exact hcolumn

/-- Two formulas of one identity that are one check have one outcome, but for their texts. -/
theorem Session.validate_of_same_check {s : Scope} {root root' : Expr} {op : Option Strategy}
    (hn : s.function.name ≠ "") (hid : root'.id = root.id)
    (h : s.validateNode root' op = s.validateNode root op) (session : Session) (t : Tracker) :
    ∃ report after, session.validate t s root op = .ok (report, after) ∧
      session.validate t s root' op = .ok ({ report with expression := root'.text }, after) := by
  obtain ⟨v, p, hv, -⟩ := Session.validateNode_once session s root op
  have hv' : (s.validateNode root' op).Gives session.newPass v p := by rwa [h]
  refine ⟨_, _, Session.validate_eq hn hv, (Session.validate_eq hn hv').trans ?_⟩
  unfold Report.ofVerdict Session.tellings
  rw [hid]

/-- **Columns of another entity.**  An access into a known entity is delegable iff the facet that
the function selects in that entity supports the column that the name leads to.  So all that
counts are the entity's display names and that facet.  A column that is bound to a display name
is judged alike by either name, down to what is said and told, unless its logical name is the
display name of another column; a rejection is of the column under its logical name. -/
theorem Session.entityAccess_judged_by_entity {s : Scope} {e : Entity} {left : Expr} {id : NodeId}
    (hn : s.function.name ≠ "") (h : s.IsEntityAccess e left id) (op : Option Strategy)
    (session : Session) (t : Tracker) :
    (∀ right, session.Delegates t s (.dotted id left right) op ↔
      ∃ column, e.LeadsTo right column ∧
        (e.source.facetFor s.function.requires).Supports ⟨[column]⟩ s.function.requires
          (op.map Strategy.requires)) ∧
    (∀ (u : Scope) (f : Entity), u.IsEntityAccess f left id → u.function = s.function →
      f.displayNames = e.displayNames →
      f.source.facetFor s.function.requires = e.source.facetFor s.function.requires →
      ∀ (right : Name) (session' : Session) (t' : Tracker),
        session'.Delegates t' u (.dotted id left right) op ↔
          session.Delegates t s (.dotted id left right) op) ∧
    ∀ logical display : Name, e.displayNames.Built →
      e.displayNames.displayFor? logical.text = some display.text →
      (∀ l, e.displayNames.logicalFor? logical.text = some l → l = logical.text) →
      ∃ report after,
        session.validate t s (.dotted id left display) op = .ok (report, after) ∧
        session.validate t s (.dotted id left logical) op =
          .ok ({ report with expression := (Expr.dotted id left logical).text }, after) ∧
        ∀ r ∈ report.rejections, r.OfColumn id .dottedName logical.text op := by
  refine ⟨?_, ?_, ?_⟩
  · intro right
    rw [h.delegates_iff hn]
    constructor
    · intro hs
      exact ⟨Scope.entityColumn e right, Scope.leadsTo_iff.mpr rfl, hs⟩
    · rintro ⟨column, hleads, hs⟩
      rw [← Scope.leadsTo_iff.mp hleads]
      exact hs
  · intro u f hu hfunction hnames hfacet right session' t'
    have hcolumn : Scope.entityColumn f right = Scope.entityColumn e right := by
      unfold Scope.entityColumn
      rw [hnames]
    rw [h.delegates_iff hn, hu.delegates_iff (hfunction ▸ hn), hfunction, hcolumn, hfacet]
  · intro logical display hbuilt hpair hown
    have hd : Scope.entityColumn e display = logical :=
      Scope.entityColumn_display ((hbuilt.inverse _ _).mp hpair)
    have hl : Scope.entityColumn e logical = logical := Scope.entityColumn_logical hown
    have hsame : s.validateNode (.dotted id left logical) op =
        s.validateNode (.dotted id left display) op := by
      rw [Scope.validateNode_entityAccess h, Scope.validateNode_entityAccess h, hd, hl]
    have hid : (Expr.dotted id left logical).id = (Expr.dotted id left display).id := rfl
    obtain ⟨report, after, hrun, hrun'⟩ := Session.validate_of_same_check hn hid hsame session t
    exact ⟨report, after, hrun, hrun', hd ▸ h.rejections_ofColumn hn hrun⟩

/-! ## A rating that can be sorted by

`Account.Rating`, where `Rating` is the display name of a column that serves sorting only.  The
source of the condition itself describes nothing. -/

namespace Sample

def account : Name := ⟨"Account", by decide⟩

def rating : Name := ⟨"Rating", by decide⟩

def ratingColumn : Name := ⟨"cr_rating", by decide⟩

def accounts : Entity where
  displayNames := DisplayNames.bind {} "cr_rating" "Rating"
  source := { sort := { columns := .ofList [(.ofName ratingColumn, ⟨.single .sort, .none⟩)] } }

def accountFacts : FactTable where
  facts := .ofList
    [(0, { rowScoped := true,
           type? := some (.record (some ⟨"accounts", account, ⟨.ofList [("accounts", accounts)]⟩⟩)) }),
     (1, { rowScoped := true })]

def rated (f : DelegableFunction) : Scope := ⟨f, accountFacts, {}⟩

theorem rated_isEntityAccess (f : DelegableFunction) :
    (rated f).IsEntityAccess accounts (.first 0 account) 1 :=
  ⟨rfl, Or.inl rfl, ⟨0, account, rfl, fun h => Bool.false_ne_true h.1⟩, rfl, _, rfl, rfl⟩

theorem rating_judged_by_account :
    (rated .sort).IsEntityAccess accounts (.first 0 account) 1 ∧
      ({} : Session).Delegates silent (rated .sort) (.dotted 1 (.first 0 account) rating) none ∧
      accounts.displayNames.Built ∧
      ∃ report after,
        ({} : Session).validate silent (rated .filter) (.dotted 1 (.first 0 account) rating) none =
          .ok (report, after) ∧
        ({} : Session).validate silent (rated .filter)
          (.dotted 1 (.first 0 account) ratingColumn) none =
            .ok ({ report with expression := "Account.cr_rating" }, after) ∧
        report.delegable = false ∧
        ∀ r ∈ report.rejections, r.OfColumn 1 .dottedName "cr_rating" none := by
  have hread : DisplayNames.ofPairs [("cr_rating", "Rating")] = .ok accounts.displayNames := rfl
  have hbuilt : accounts.displayNames.Built := DisplayNames.built_of_ofPairs hread
  obtain ⟨hsort, -⟩ := Session.entityAccess_judged_by_entity (by decide)
    (rated_isEntityAccess .sort) none {} silent
  obtain ⟨-, -, hnames⟩ := Session.entityAccess_judged_by_entity (by decide)
    (rated_isEntityAccess .filter) none {} silent
  obtain ⟨report, after, hrun, hrun', hcolumn⟩ := hnames ratingColumn rating hbuilt rfl
    fun l hl => by cases hl
  have hd : report.delegable = false := by
    have hval : (({} : Session).validate silent (rated .filter)
        (.dotted 1 (.first 0 account) rating) none).map (·.1.delegable) = .ok false := rfl
    rw [hrun] at hval
    exact Except.ok.inj hval
  refine ⟨rated_isEntityAccess .sort, (hsort rating).mpr ?_, hbuilt, report, after, hrun, hrun',
    hd, hcolumn⟩
  exact ⟨ratingColumn, Or.inl rfl, _, rfl, rfl, by simp⟩

end Sample

end Delegability
