/-
# `Delegability.Proofs.FirstFault` — why a case cannot be resolved

Three things can be wrong with what a case says about a node, and each is a text that should be a
name and is blank:

    the column of an entity, in the type       ┐
    the column of an entity, in the name       ├  a blank text
    a path, in the name                        ┘  in a path: a blank piece

Several can be wrong at once, with one node or with many.  The outcome is the fault of the first
node with which something is wrong, nodes coming after those below them; of one node, what is wrong
with its type comes first; of one path, the first blank piece.  The function is looked up before any
of this, and entities are not looked at at all.

A fault is stated here as a relation between what is said and why it is wrong, and nothing is
resolved on the way.  `Case.resolve_fails_at_first_fault` ties the two together.
-/
import Delegability.Command
import Delegability.Proofs.Numbering

namespace Delegability

/-! ## The first fault -/

/-- `why` is what is wrong with the first item with which something is wrong. -/
inductive FirstFault {α ε : Type} (Fault : α → ε → Prop) : List α → ε → Prop
  | here {a : α} {as : List α} {why : ε} : Fault a why → FirstFault Fault (a :: as) why
  | later {a : α} {as : List α} {why : ε} : (∀ e, ¬ Fault a e) → FirstFault Fault as why →
      FirstFault Fault (a :: as) why

namespace FirstFault

variable {α β ε : Type} {Fault : α → ε → Prop} {f : α → Except ε β} {as : List α} {why : ε}

theorem exists_mem (h : FirstFault Fault as why) : ∃ a ∈ as, Fault a why := by
  induction h with
  | here h => exact ⟨_, List.mem_cons_self, h⟩
  | later _ _ ih =>
      obtain ⟨a, ha, h⟩ := ih
      exact ⟨a, List.mem_cons_of_mem _ ha, h⟩

theorem exists_iff : (∃ why, FirstFault Fault as why) ↔ ∃ a ∈ as, ∃ why, Fault a why := by
  constructor
  · rintro ⟨why, h⟩
    obtain ⟨a, ha, h⟩ := h.exists_mem
    exact ⟨a, ha, why, h⟩
  · rintro ⟨a, ha, e, h⟩
    induction as with
    | nil => exact absurd ha List.not_mem_nil
    | cons x xs ih =>
        by_cases hx : ∃ why, Fault x why
        · obtain ⟨why, hx⟩ := hx
          exact ⟨why, .here hx⟩
        · have hno : ∀ e, ¬ Fault x e := fun e he => hx ⟨e, he⟩
          rcases List.mem_cons.mp ha with rfl | ha
          · exact absurd h (hno e)
          · obtain ⟨why, hxs⟩ := ih ha
            exact ⟨why, .later hno hxs⟩

/-- Items are resolved in order, and the first that fails ends it. -/
theorem mapM_eq_error (h : ∀ a e, f a = .error e ↔ Fault a e) :
    as.mapM f = .error why ↔ FirstFault Fault as why := by
  induction as with
  | nil => exact iff_of_false (fun h => by cases h) (fun h => by cases h)
  | cons a as ih =>
      rw [List.mapM_cons, Success.bind_eq_error]
      constructor
      · rintro (ha | ⟨b, ha, hrest⟩)
        · exact .here ((h a why).mp ha)
        · have hno : ∀ e, ¬ Fault a e := by
            intro e he
            cases ha.symm.trans ((h a e).mpr he)
          rcases Success.bind_eq_error.mp hrest with has | ⟨bs, -, hpure⟩
          · exact .later hno (ih.mp has)
          · cases hpure
      · intro hfirst
        cases hfirst with
        | here ha => exact Or.inl ((h a why).mpr ha)
        | later hno hrest =>
            cases ha : f a with
            | error e => exact absurd ((h a e).mp ha) (hno e)
            | ok b => exact Or.inr ⟨b, rfl, Success.bind_eq_error.mpr (Or.inl (ih.mpr hrest))⟩

end FirstFault

/-! ## Faults of a node -/

/-- The text is no name, and why. -/
inductive NoName : String → NameError → Prop
  | empty : NoName "" .empty
  | blank {s : String} : s ≠ "" → (∀ c ∈ s.toList, Text.isBlank c = true) → NoName s (.blank s)

/-- What is wrong with a type. -/
inductive TypeFault : CaseType → CaseFault → Prop
  | expansion {x : CaseExpansion} {why : NameError} : NoName x.name why →
      TypeFault (.record (some x)) (.badName why)

/-- What is wrong with a name. -/
inductive NameFault : CaseName → CaseFault → Prop
  | expansion {x : CaseExpansion} {why : NameError} : NoName x.name why →
      NameFault (.entityExpansion x) (.badName why)
  | path {path : String} {outer : Bool} {why : NameError} :
      FirstFault (fun piece => NoName (String.ofList piece)) (path.toList.splitOn '.') why →
      NameFault (.localColumn path outer) (.badPath path why)

/-- What is wrong with the facts about a node, the type coming before the name. -/
inductive NodeFault (facts : CaseFacts) : CaseFault → Prop
  | type {t : CaseType} {why : CaseFault} : facts.type? = some t → TypeFault t why →
      NodeFault facts why
  | name {n : CaseName} {why : CaseFault} : (∀ t, facts.type? = some t → ∀ e, ¬ TypeFault t e) →
      facts.name? = some n → NameFault n why → NodeFault facts why

/-- Something is wrong with the facts about a node: the column of an entity is blank, or a piece of
a path is. -/
def CaseFacts.Faulty (facts : CaseFacts) : Prop :=
  (∃ x, facts.type? = some (.record (some x)) ∧ Text.allBlank x.name = true) ∨
  (∃ x, facts.name? = some (.entityExpansion x) ∧ Text.allBlank x.name = true) ∨
  ∃ path outer, facts.name? = some (.localColumn path outer) ∧
    ∃ piece ∈ path.toList.splitOn '.', Text.allBlank (String.ofList piece) = true

theorem exists_noName {s : String} : (∃ why, NoName s why) ↔ Text.allBlank s = true := by
  rw [Text.allBlank, List.all_eq_true]
  constructor
  · rintro ⟨why, h⟩
    cases h with
    | empty => exact fun c hc => absurd hc List.not_mem_nil
    | blank _ h => exact h
  · intro h
    by_cases hs : s = ""
    · subst hs
      exact ⟨.empty, .empty⟩
    · exact ⟨.blank s, .blank hs h⟩

theorem exists_typeFault {t : CaseType} :
    (∃ why, TypeFault t why) ↔ ∃ x, t = .record (some x) ∧ Text.allBlank x.name = true := by
  constructor
  · rintro ⟨why, ⟨h⟩⟩
    exact ⟨_, rfl, exists_noName.mp ⟨_, h⟩⟩
  · rintro ⟨x, rfl, h⟩
    obtain ⟨why, h⟩ := exists_noName.mpr h
    exact ⟨_, .expansion h⟩

theorem exists_nameFault {n : CaseName} : (∃ why, NameFault n why) ↔
    (∃ x, n = .entityExpansion x ∧ Text.allBlank x.name = true) ∨
    ∃ path outer, n = .localColumn path outer ∧
      ∃ piece ∈ path.toList.splitOn '.', Text.allBlank (String.ofList piece) = true := by
  simp only [← exists_noName]
  constructor
  · rintro ⟨why, h⟩
    cases h with
    | expansion h => exact Or.inl ⟨_, rfl, _, h⟩
    | path h => exact Or.inr ⟨_, _, rfl, FirstFault.exists_iff.mp ⟨_, h⟩⟩
  · rintro (⟨x, rfl, why, h⟩ | ⟨path, outer, rfl, h⟩)
    · exact ⟨_, .expansion h⟩
    · obtain ⟨why, h⟩ := FirstFault.exists_iff.mpr h
      exact ⟨_, .path h⟩

theorem exists_nodeFault {facts : CaseFacts} : (∃ why, NodeFault facts why) ↔ facts.Faulty := by
  have hparts : (∃ why, NodeFault facts why) ↔
      (∃ t, facts.type? = some t ∧ ∃ why, TypeFault t why) ∨
        ∃ n, facts.name? = some n ∧ ∃ why, NameFault n why := by
    constructor
    · rintro ⟨why, h⟩
      cases h with
      | type ht h => exact Or.inl ⟨_, ht, _, h⟩
      | name _ hn h => exact Or.inr ⟨_, hn, _, h⟩
    · rintro (⟨t, ht, why, h⟩ | ⟨n, hn, why, h⟩)
      · exact ⟨why, .type ht h⟩
      · -- the type may be wrong as well, and then it is the one that counts
        by_cases hbad : ∃ t, facts.type? = some t ∧ ∃ e, TypeFault t e
        · obtain ⟨t, ht, e, he⟩ := hbad
          exact ⟨e, .type ht he⟩
        · exact ⟨why, .name (fun t ht e he => hbad ⟨t, ht, e, he⟩) hn h⟩
  rw [hparts, CaseFacts.Faulty]
  refine or_congr ?_ ?_
  · simp only [exists_typeFault]
    constructor
    · rintro ⟨_, ht, x, rfl, h⟩
      exact ⟨x, ht, h⟩
    · rintro ⟨x, ht, h⟩
      exact ⟨_, ht, x, rfl, h⟩
  · simp only [exists_nameFault]
    constructor
    · rintro ⟨_, hn, ⟨x, rfl, h⟩ | ⟨path, outer, rfl, h⟩⟩
      · exact Or.inl ⟨x, hn, h⟩
      · exact Or.inr ⟨path, outer, hn, h⟩
    · rintro (⟨x, hn, h⟩ | ⟨path, outer, hn, h⟩)
      · exact ⟨_, hn, Or.inl ⟨x, rfl, h⟩⟩
      · exact ⟨_, hn, Or.inr ⟨path, outer, rfl, h⟩⟩

/-! ## Resolving fails on faults -/

theorem Name.ofText_eq_error {s : String} {e : NameError} : Name.ofText s = .error e ↔ NoName s e := by
  constructor
  · intro h
    unfold ofText at h
    split at h
    next => cases h
    next hno =>
      split at h
      next hempty =>
        cases h
        rw [List.isEmpty_iff, String.toList_eq_nil_iff] at hempty
        exact hempty ▸ .empty
      next hne =>
        cases h
        have hblank : Text.allBlank s = true := by
          simpa [isNameText, hne] using hno
        refine .blank (fun hs => hne ?_) (List.all_eq_true.mp hblank)
        rw [hs]
        rfl
  · intro h
    have hblank : Text.allBlank s = true := exists_noName.mp ⟨e, h⟩
    have hno : ¬ isNameText s = true := by
      simp [isNameText, hblank]
    unfold ofText
    rw [dif_neg hno]
    cases h with
    | empty => rfl
    | blank hs _ =>
        rw [if_neg]
        rwa [List.isEmpty_iff, String.toList_eq_nil_iff]

theorem ColumnPath.parse_eq_error {s : String} {e : NameError} : ColumnPath.parse s = .error e ↔
    FirstFault (fun piece => NoName (String.ofList piece)) (s.toList.splitOn '.') e := by
  rw [← FirstFault.mapM_eq_error fun piece e => Name.ofText_eq_error]
  unfold parse
  cases (s.toList.splitOn '.').mapM fun p => Name.ofText (String.ofList p) with
  | error e' => exact ⟨fun h => congrArg _ (Except.error.inj h), fun h => congrArg _ (Except.error.inj h)⟩
  | ok ns => exact iff_of_false (fun h => by cases h) (fun h => by cases h)

namespace Case

variable {c : Case} {functions : FunctionRegistry} {base : Features} {why : CaseFault}

theorem expansion_eq_error {x : CaseExpansion} :
    c.expansion x = .error why ↔ ∃ e, NoName x.name e ∧ why = .badName e := by
  simp only [← Name.ofText_eq_error]
  unfold expansion
  cases Name.ofText x.name with
  | ok name => simp
  | error e => simp [eq_comm]

theorem resolveType_eq_error {t : CaseType} : c.resolveType t = .error why ↔ TypeFault t why := by
  cases t with
  | record x =>
      cases x with
      | none => exact iff_of_false (fun h => by cases h) (fun h => by cases h)
      | some x =>
          rw [resolveType, Success.map_eq_error, expansion_eq_error]
          constructor
          · rintro ⟨e, h, rfl⟩
            exact .expansion h
          · intro h
            cases h with
            | expansion h => exact ⟨_, h, rfl⟩
  | optionSet | optionSetValue | view | viewValue | other =>
      exact iff_of_false (fun h => by cases h) (fun h => by cases h)

theorem resolveName_eq_error {n : CaseName} : c.resolveName n = .error why ↔ NameFault n why := by
  cases n with
  | localColumn path outer =>
      have hparse : c.resolveName (.localColumn path outer) = .error why ↔
          ∃ e, ColumnPath.parse path = .error e ∧ why = .badPath path e := by
        rw [resolveName]
        cases ColumnPath.parse path with
        | ok p => simp
        | error e => simp [eq_comm]
      simp only [hparse, ColumnPath.parse_eq_error]
      constructor
      · rintro ⟨e, h, rfl⟩
        exact .path h
      · intro h
        cases h with
        | path h => exact ⟨_, h, rfl⟩
  | entityExpansion x =>
      rw [resolveName, Success.map_eq_error, expansion_eq_error]
      constructor
      · rintro ⟨e, h, rfl⟩
        exact .expansion h
      · intro h
        cases h with
        | expansion h => exact ⟨_, h, rfl⟩
  | scopeRecord outer => exact iff_of_false (fun h => by cases h) (fun h => by cases h)
  | other => exact iff_of_false (fun h => by cases h) (fun h => by cases h)

theorem resolveOption_eq_error {α β : Type} {f : α → Except CaseFault β} {a? : Option α} :
    resolveOption f a? = .error why ↔ ∃ a, a? = some a ∧ f a = .error why := by
  cases a? with
  | none => exact iff_of_false (fun h => by cases h) (fun ⟨_, h, _⟩ => by cases h)
  | some a =>
      rw [resolveOption, Success.map_eq_error]
      constructor
      · intro h
        exact ⟨a, rfl, h⟩
      · rintro ⟨_, ⟨⟩, h⟩
        exact h

theorem resolveFacts_eq_error {r : CaseExpr.NodeRecord} :
    c.resolveFacts functions r = .error why ↔ NodeFault r.facts why := by
  have htype : ∀ e, resolveOption c.resolveType r.facts.type? = .error e ↔
      ∃ t, r.facts.type? = some t ∧ TypeFault t e := by
    intro e
    simp only [resolveOption_eq_error, resolveType_eq_error]
  have hname : ∀ e, resolveOption c.resolveName r.facts.name? = .error e ↔
      ∃ n, r.facts.name? = some n ∧ NameFault n e := by
    intro e
    simp only [resolveOption_eq_error, resolveName_eq_error]
  unfold resolveFacts
  rw [Success.bind_eq_error, htype]
  constructor
  · rintro (⟨t, ht, h⟩ | ⟨type?, hok, h⟩)
    · exact .type ht h
    · rcases Success.bind_eq_error.mp h with h | ⟨name?, -, h⟩
      · obtain ⟨n, hn, h⟩ := (hname why).mp h
        refine .name (fun t ht e he => ?_) hn h
        cases hok.symm.trans ((htype e).mpr ⟨t, ht, he⟩)
      · cases h
  · intro h
    cases h with
    | type ht h => exact Or.inl ⟨_, ht, h⟩
    | name hno hn h =>
        cases hok : resolveOption c.resolveType r.facts.type? with
        | error e =>
            obtain ⟨t, ht, he⟩ := (htype e).mp hok
            exact absurd he (hno t ht e)
        | ok type? =>
            exact Or.inr ⟨type?, rfl, Success.bind_eq_error.mpr (Or.inl ((hname why).mpr ⟨_, hn, h⟩))⟩

/-- Where the function is known, resolving fails with the first fault of the nodes. -/
theorem resolve_eq_error_of_known {f : DelegableFunction} (hf : functions.get c.function = .ok f) :
    c.resolve functions base = .error why ↔
      FirstFault (fun e => NodeFault e.facts) c.expression.postorder why := by
  have hnode : ∀ (e : CaseExpr) why,
      c.resolveFacts functions e.record = .error why ↔ NodeFault e.facts why := by
    intro e why
    rw [resolveFacts_eq_error, e.facts_record]
  rw [← FirstFault.mapM_eq_error hnode, resolve_eq, hf, CaseExpr.records_eq_map, List.mapM_map]
  show ((c.expression.postorder.mapM fun e => c.resolveFacts functions e.record) >>= fun fs =>
    (.ok (c.problem base f fs) : Except CaseFault Problem)) = _ ↔ _
  rw [Success.bind_eq_error]
  constructor
  · rintro (h | ⟨fs, -, h⟩)
    · exact h
    · cases h
  · exact Or.inl

theorem resolve_of_unknown (h : ∀ f, functions.get c.function ≠ .ok f) :
    c.resolve functions base = .error (.unknownFunction c.function) := by
  rw [resolve_eq]
  cases hf : functions.get c.function with
  | ok f => exact absurd hf (h f)
  | error e => rfl

/-- Whatever entities there are, a case fails as it does. -/
theorem resolve_eq_error_entities (entities : Dict String Entity) :
    { c with entities }.resolve functions base = .error why ↔
      c.resolve functions base = .error why := by
  by_cases hknown : ∃ f, functions.get c.function = .ok f
  · obtain ⟨f, hf⟩ := hknown
    have hf' : functions.get { c with entities }.function = .ok f := hf
    rw [resolve_eq_error_of_known hf, resolve_eq_error_of_known hf']
  · have hunknown : ∀ f, functions.get c.function ≠ .ok f := fun f hf => hknown ⟨f, hf⟩
    have hunknown' : ∀ f, functions.get { c with entities }.function ≠ .ok f := hunknown
    rw [resolve_of_unknown hunknown, resolve_of_unknown hunknown']

end Case

/-! ## Entities -/

theorem FunctionRegistry.mem_names {r : FunctionRegistry} {name : String} :
    name ∈ r.names ↔ ∃ f, r.get name = .ok f := by
  simp only [get_eq_ok]
  exact Dict.mem_keys

/-- Entities of different identities, none of which is registered, can be registered one after the
other. -/
theorem EntityRegistry.foldlM_register {es : List (String × Entity)} {r : EntityRegistry}
    (hkeys : (es.map Prod.fst).Nodup) (hnew : ∀ e ∈ es, r.entities.get? e.1 = none) :
    es.foldlM (fun r e => r.register e.1 e.2) r =
      .ok ⟨es.foldl (fun d e => d.insert e.1 e.2) r.entities⟩ := by
  induction es generalizing r with
  | nil => rfl
  | cons e es ih =>
      rw [List.map_cons, List.nodup_cons] at hkeys
      obtain ⟨hnot, hkeys⟩ := hkeys
      have hregister : r.register e.1 e.2 = .ok ⟨r.entities.insert e.1 e.2⟩ := by
        unfold register Dict.contains
        rw [hnew e List.mem_cons_self]
        rfl
      rw [List.foldlM_cons, hregister]
      refine ih hkeys fun x hx => ?_
      have hne : compare x.1 e.1 ≠ .eq := by
        intro hc
        rw [← Std.LawfulEqCmp.eq_of_compare hc] at hnot
        exact hnot (List.mem_map_of_mem hx)
      rw [Dict.get?_insert_of_ne _ hne]
      exact hnew x (List.mem_cons_of_mem e hx)

/-- The entities of a case can all be registered. -/
theorem Case.register_entities (c : Case) :
    c.entities.entries.foldlM (fun (r : EntityRegistry) e => r.register e.1 e.2) {} =
      .ok c.registry := by
  rw [EntityRegistry.foldlM_register c.entities.nodup_keys fun _ _ => rfl]
  exact congrArg (fun d => Except.ok (EntityRegistry.mk d)) c.entities.ofList_entries

/-! ## Failures -/

theorem NodeFault.failure {facts : CaseFacts} {why : CaseFault} (h : NodeFault facts why) :
    Failure.ofCase why = ⟨.invalidCase, why.message⟩ := by
  cases h with
  | type _ h =>
      cases h
      rfl
  | name _ _ h => cases h <;> rfl

namespace Case

/-- The problem of a case, or the failure that a call ends with. -/
def load (c : Case) (functions : FunctionRegistry) (base : Features) : Except Failure Problem :=
  (c.resolve functions base).mapError .ofCase

variable {c : Case} {functions : FunctionRegistry} {base : Features}

theorem load_eq_error_of_known {f : DelegableFunction} (hf : functions.get c.function = .ok f)
    (failure : Failure) : c.load functions base = .error failure ↔
      ∃ why, FirstFault (fun e => NodeFault e.facts) c.expression.postorder why ∧
        failure = ⟨.invalidCase, why.message⟩ := by
  unfold load
  simp only [Success.mapError_eq_error, resolve_eq_error_of_known hf]
  refine exists_congr fun why => and_congr_right fun h => ?_
  obtain ⟨e, -, he⟩ := h.exists_mem
  rw [he.failure, eq_comm]

theorem load_of_unknown (h : ∀ f, functions.get c.function ≠ .ok f) :
    c.load functions base = .error (.ofCase (.unknownFunction c.function)) := by
  unfold load
  rw [resolve_of_unknown h]
  rfl

/-- **The first fault.**  A case fails with an unknown function iff its function is not registered.
Otherwise it is invalid iff something is wrong with one of its nodes, and the message is that of
the first fault; else it has a problem.  Its entities can be registered without fail, and no others
would make it fail in another way. -/
theorem resolve_fails_at_first_fault (c : Case) (functions : FunctionRegistry) (base : Features) :
    ((∃ f, c.load functions base = .error f ∧ f.code = "DELEG_CLI_UNKNOWN_FUNCTION") ↔
      c.function ∉ functions.names) ∧
    (c.function ∈ functions.names →
      ((∃ f, c.load functions base = .error f ∧ f.code = "DELEG_CLI_INVALID_CASE") ↔
        ∃ e ∈ c.expression.postorder, e.facts.Faulty) ∧
      (∀ message, c.load functions base = .error ⟨.invalidCase, message⟩ ↔
        ∃ why, FirstFault (fun e => NodeFault e.facts) c.expression.postorder why ∧
          message = why.message) ∧
      ((∀ e ∈ c.expression.postorder, ¬ e.facts.Faulty) →
        ∃ p, c.load functions base = .ok p)) ∧
    c.entities.entries.foldlM (fun (r : EntityRegistry) e => r.register e.1 e.2) {} =
      .ok c.registry ∧
    ∀ entities why, { c with entities }.resolve functions base = .error why ↔
      c.resolve functions base = .error why := by
  refine ⟨?_, ?_, c.register_entities, fun entities why => resolve_eq_error_entities entities⟩
  · rw [FunctionRegistry.mem_names]
    by_cases hknown : ∃ f, functions.get c.function = .ok f
    · obtain ⟨f, hf⟩ := hknown
      refine iff_of_false ?_ fun hno => hno ⟨f, hf⟩
      rintro ⟨failure, hload, hcode⟩
      obtain ⟨why, -, rfl⟩ := (load_eq_error_of_known hf failure).mp hload
      have hcodes : FailureKind.invalidCase.code ≠ "DELEG_CLI_UNKNOWN_FUNCTION" := by decide
      exact hcodes hcode
    · exact iff_of_true ⟨_, load_of_unknown fun f hf => hknown ⟨f, hf⟩, rfl⟩ hknown
  · intro hmem
    obtain ⟨f, hf⟩ := FunctionRegistry.mem_names.mp hmem
    have hfaults : (∃ why, FirstFault (fun e => NodeFault e.facts) c.expression.postorder why) ↔
        ∃ e ∈ c.expression.postorder, e.facts.Faulty := by
      simp only [FirstFault.exists_iff, exists_nodeFault]
    refine ⟨?_, ?_, ?_⟩
    · rw [← hfaults]
      constructor
      · rintro ⟨failure, hload, -⟩
        obtain ⟨why, hwhy, -⟩ := (load_eq_error_of_known hf failure).mp hload
        exact ⟨why, hwhy⟩
      · rintro ⟨why, hwhy⟩
        exact ⟨_, (load_eq_error_of_known hf _).mpr ⟨why, hwhy, rfl⟩, rfl⟩
    · intro message
      simp only [load_eq_error_of_known hf, Failure.mk.injEq, true_and]
    · intro hnone
      cases hload : c.load functions base with
      | ok p => exact ⟨p, rfl⟩
      | error failure =>
          obtain ⟨why, hwhy, -⟩ := (load_eq_error_of_known hf failure).mp hload
          obtain ⟨e, he, hfaulty⟩ := hfaults.mp ⟨why, hwhy⟩
          exact absurd hfaulty (hnone e he)

end Case

/-! ## Faults everywhere

`City = Owner`, where the path of the city has an empty piece and then a blank one, the owner is
known under a blank column, and the operator has a type that is wrong.  The empty piece counts. -/

namespace Sample

def faulty : Case where
  function := "Filter"
  expression := .binary .equal
    (.first "City" { name? := some (.localColumn "Address..\t" false) })
    (.first "Owner" { name? := some (.entityExpansion ⟨"people", " "⟩) })
    { type? := some (.record (some ⟨"people", ""⟩)) }

theorem faulty_fails_at_path :
    faulty.function ∈ FunctionRegistry.builtins.names ∧
      (∃ e ∈ faulty.expression.postorder, e.facts.Faulty) ∧
      faulty.load .builtins {} =
        .error ⟨.invalidCase, "column path 'Address..\t': Name must not be empty"⟩ := by
  obtain ⟨-, hknown, -, -⟩ := Case.resolve_fails_at_first_fault faulty .builtins {}
  have hmem : faulty.function ∈ FunctionRegistry.builtins.names := by decide
  obtain ⟨hfaulty, hfirst, -⟩ := hknown hmem
  have hpieces : FirstFault (fun piece => NoName (String.ofList piece))
      ("Address..\t".toList.splitOn '.') .empty := by
    refine .later (fun e he => ?_) (.here .empty)
    have hblank : Text.allBlank "Address" = true := exists_noName.mp ⟨e, he⟩
    exact absurd hblank (by decide)
  have hload := (hfirst _).mpr
    ⟨_, .here (.name (fun _ ht => nomatch ht) rfl (.path hpieces)), rfl⟩
  exact ⟨hmem, hfaulty.mp ⟨_, hload, rfl⟩, hload⟩

end Sample

end Delegability
