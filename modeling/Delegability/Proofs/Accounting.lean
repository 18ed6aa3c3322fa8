/-
# `Delegability.Proofs.Accounting` — four channels, one account

A rejection that a pass notes goes to four places: the messages at the nodes, the store, the
counters, the log.  They forget differently.  A pass rejects a node once; the messages keep
one of each key at a node for ever; the store keeps everything; the counters keep numbers,
in words of 64 bits.  An account is what a task itself shows, that is, the rejections of its
pass and the report if it was a validation.

    accounts of a run  ──concatenated──▸  noted : (function, rejection) …
                       ──reports──────▸  verdicts

`Ledger.Balanced` says how each channel is computed from these two lists.  One finding, one
verdict, one record of the log keep the balance (`Balanced.tell`, `Balanced.recordVerdict`,
`Balanced.logEvent`), hence so does a task (`perform_balanced`), hence so does a run, from the
empty ledger on (`run_balanced`).  The counters are exact modulo `2 ^ 64` throughout; that
few increments are made is used at the very end (`run_accounts`).
-/
import Delegability.Proofs.History
import Mathlib.Data.Bool.Count

namespace Delegability

/-! ## Counters -/

namespace Metrics

theorem count_countRejection (m : Metrics) (s t : Status) :
    (m.countRejection s).count t = if s = t then (m.count t + 1) % 2 ^ 64 else m.count t := by
  cases s <;> cases t <;> simp [count, countRejection]

theorem count_countVerdict (m : Metrics) (b : Bool) (s : Status) :
    (m.countVerdict b).count s = m.count s := by
  cases b <;> cases s <;> rfl

theorem validations_countVerdict (m : Metrics) (b : Bool) :
    (m.countVerdict b).validations = m.validations + 1 := by
  cases b <;> rfl

/-- A rejection leaves the counters of validations alone. -/
theorem verdicts_countRejection (m : Metrics) (s : Status) :
    (m.countRejection s).validations = m.validations ∧
      (m.countRejection s).delegable = m.delegable ∧
      (m.countRejection s).rejected = m.rejected := by
  cases s <;> exact ⟨rfl, rfl, rfl⟩

end Metrics

theorem toNat_succ_of_mod {x : UInt64} {n : Nat} (h : x.toNat = n % 2 ^ 64) :
    (x + 1).toNat = (n + 1) % 2 ^ 64 := by
  rw [UInt64.toNat_add, h, UInt64.toNat_one]
  omega

/-! ## What the sinks do with an entry -/

namespace Ledger

theorem foldl_put_entries (e : Entry) (sinks : List Sink) (l : Ledger) :
    (sinks.foldl (put e) l).entries = l.entries ++ List.replicate (sinks.count .memory) e := by
  induction sinks generalizing l with
  | nil => exact (List.append_nil _).symm
  | cons s sinks ih =>
      rw [List.foldl_cons, ih]
      cases s with
      | memory =>
          show l.entries ++ [e] ++ _ = _
          rw [List.append_assoc, List.count_cons_self, List.replicate_succ]
          rfl
      | metrics | log | null =>
          rw [List.count_cons_of_ne (by simp)]
          rfl

theorem foldl_put_metrics (e : Entry) (sinks : List Sink) (l : Ledger) :
    (sinks.foldl (put e) l).metrics =
      (List.replicate (sinks.count .metrics) e.status).foldl Metrics.countRejection l.metrics := by
  induction sinks generalizing l with
  | nil => rfl
  | cons s sinks ih =>
      rw [List.foldl_cons, ih]
      cases s with
      | metrics =>
          rw [List.count_cons_self, List.replicate_succ]
          rfl
      | memory | log | null =>
          rw [List.count_cons_of_ne (by simp)]
          rfl

theorem recordVerdict_metrics (b : Bool) (sinks : List Sink) (l : Ledger) :
    (l.recordVerdict sinks b).metrics =
      (List.replicate (sinks.count .metrics) b).foldl Metrics.countVerdict l.metrics := by
  unfold recordVerdict
  induction sinks generalizing l with
  | nil => rfl
  | cons s sinks ih =>
      rw [List.foldl_cons, ih]
      cases s with
      | metrics =>
          rw [List.count_cons_self, List.replicate_succ]
          rfl
      | memory | log | null =>
          rw [List.count_cons_of_ne (by simp)]
          rfl

theorem recordVerdict_entries (b : Bool) (sinks : List Sink) (l : Ledger) :
    (l.recordVerdict sinks b).entries = l.entries := by
  unfold recordVerdict
  induction sinks generalizing l with
  | nil => rfl
  | cons s sinks ih =>
      rw [List.foldl_cons, ih]
      cases s <;> rfl

end Ledger

/-- The tracker fans out to the counters and to the store, to each of them once. -/
structure Tracker.CountsAndStores (t : Tracker) : Prop where
  metrics : t.sinks.count .metrics = 1
  memory : t.sinks.count .memory = 1

/-! ## First messages -/

/-- Attaching a message is looking for its node and key among the first ones. -/
theorem Diagnostics.eraseDupsBy_concat (ds : Diagnostics) (d : Diagnostic) :
    (ds ++ [d]).eraseDupsBy Diagnostic.clashes =
      Diagnostics.ensure (ds.eraseDupsBy Diagnostic.clashes) d := by
  suffices h : ∀ kept : Diagnostics, List.eraseDupsBy.loop Diagnostic.clashes (ds ++ [d]) kept =
      Diagnostics.ensure (List.eraseDupsBy.loop Diagnostic.clashes ds kept) d from h []
  intro kept
  -- the kept ones stand in reverse, which no look-up notices
  induction ds generalizing kept with
  | nil =>
      rw [List.nil_append, List.eraseDupsBy.loop, List.eraseDupsBy.loop, List.eraseDupsBy.loop,
        ensure, covers, List.any_reverse, List.eraseDupsBy.loop]
      cases kept.any d.clashes <;> simp
  | cons x ds ih =>
      rw [List.cons_append, List.eraseDupsBy.loop, List.eraseDupsBy.loop]
      cases kept.any x.clashes with
      | true => exact ih kept
      | false => exact ih (x :: kept)

/-! ## The balance -/

/-- What an entry says of a rejection, its stamp left out. -/
def Entry.content (e : Entry) : Status × NodeId × NodeKind × String × String :=
  (e.status, e.node, e.kind, e.context, e.function)

/-- The channels of the ledger are those of what was noted, with the function it was noted
for, and of the verdicts that were shown. -/
structure Ledger.Balanced (l : Ledger) (noted : List (String × Rejection))
    (verdicts : List Bool) : Prop where
  entries : l.entries.map Entry.content =
    noted.map fun n => (n.2.status, n.2.node, n.2.kind, n.2.context, n.1)
  diagnostics : l.diagnostics =
    (noted.map fun n => Diagnostic.ofHint n.2.node n.2.hint).eraseDupsBy Diagnostic.clashes
  counts : ∀ s, l.metrics.count s = noted.countP (fun n => n.2.status = s) % 2 ^ 64
  validations : l.metrics.validations.toNat = verdicts.length % 2 ^ 64
  delegable : l.metrics.delegable.toNat = verdicts.count true % 2 ^ 64
  rejected : l.metrics.rejected.toNat = verdicts.count false % 2 ^ 64

namespace Ledger

variable {l : Ledger} {t : Tracker} {noted : List (String × Rejection)} {verdicts : List Bool}

theorem balanced_empty : ({} : Ledger).Balanced [] [] :=
  ⟨rfl, rfl, fun s => by cases s <;> rfl, rfl, rfl, rfl⟩

theorem Balanced.logEvent (h : l.Balanced noted verdicts) (e : Event)
    (fields : List (String × String)) : (l.logEvent e fields).Balanced noted verdicts :=
  ⟨h.entries, h.diagnostics, h.counts, h.validations, h.delegable, h.rejected⟩

theorem Balanced.tellRejection (ht : t.CountsAndStores) (h : l.Balanced noted verdicts)
    (function : String) (r : Rejection) :
    (l.tellRejection t function r).Balanced (noted ++ [(function, r)]) verdicts := by
  have hentries : (l.tellRejection t function r).entries =
      l.entries ++ [.ofRejection (t.stamp l.stamped) function r] := by
    have hput := foldl_put_entries (.ofRejection (t.stamp l.stamped) function r) t.sinks
      { l.attach (.ofHint r.node r.hint) with stamped := l.stamped + 1 }
    rw [ht.memory] at hput
    exact hput
  have hmetrics : (l.tellRejection t function r).metrics = l.metrics.countRejection r.status := by
    have hput := foldl_put_metrics (.ofRejection (t.stamp l.stamped) function r) t.sinks
      { l.attach (.ofHint r.node r.hint) with stamped := l.stamped + 1 }
    rw [ht.metrics] at hput
    exact hput
  have hdiagnostics : (l.tellRejection t function r).diagnostics =
      l.diagnostics.ensure (.ofHint r.node r.hint) := foldl_put_diagnostics _ t.sinks _
  obtain ⟨hv, hd, hr⟩ := l.metrics.verdicts_countRejection r.status
  constructor
  · rw [hentries, List.map_append, List.map_append, h.entries]
    rfl
  · rw [hdiagnostics, h.diagnostics, List.map_append, ← Diagnostics.eraseDupsBy_concat]
    rfl
  · intro s
    rw [hmetrics, Metrics.count_countRejection, h.counts s, List.countP_append,
      List.countP_singleton]
    split
    next hs =>
      rw [if_pos (decide_eq_true hs)]
      omega
    next hs => rw [if_neg (by simpa using hs), Nat.add_zero]
  · rw [hmetrics, hv]
    exact h.validations
  · rw [hmetrics, hd]
    exact h.delegable
  · rw [hmetrics, hr]
    exact h.rejected

theorem Balanced.tell (ht : t.CountsAndStores) (h : l.Balanced noted verdicts) (function : String)
    (f : Finding) : (l.tell t function f).Balanced
      (noted ++ f.rejection?.toList.map (function, ·)) verdicts := by
  cases f with
  | rejection r => exact h.tellRejection ht function r
  | unknownEntity identity =>
      rw [show (Finding.unknownEntity identity).rejection?.toList.map (function, ·) = [] from rfl,
        List.append_nil]
      exact h.logEvent _ _

theorem Balanced.tellAll (ht : t.CountsAndStores) (function : String) (fs : List Finding)
    (h : l.Balanced noted verdicts) : (l.tellAll t function fs).Balanced
      (noted ++ (fs.filterMap Finding.rejection?).map (function, ·)) verdicts := by
  induction fs generalizing l noted with
  | nil =>
      rw [List.filterMap_nil, List.map_nil, List.append_nil]
      exact h
  | cons f fs ih =>
      have hrest := ih (h.tell ht function f)
      rw [List.append_assoc, ← List.map_append] at hrest
      cases f <;> exact hrest

theorem Balanced.recordVerdict (ht : t.CountsAndStores) (h : l.Balanced noted verdicts) (b : Bool) :
    (l.recordVerdict t.sinks b).Balanced noted (verdicts ++ [b]) := by
  have hmetrics : (l.recordVerdict t.sinks b).metrics = l.metrics.countVerdict b := by
    rw [recordVerdict_metrics, ht.metrics]
    rfl
  constructor
  · rw [recordVerdict_entries]
    exact h.entries
  · rw [recordVerdict_diagnostics]
    exact h.diagnostics
  · intro s
    rw [hmetrics, Metrics.count_countVerdict]
    exact h.counts s
  · rw [hmetrics, Metrics.validations_countVerdict, List.length_append]
    exact toNat_succ_of_mod h.validations
  · rw [hmetrics, List.count_append]
    cases b with
    | true => exact toNat_succ_of_mod h.delegable
    | false => exact h.delegable
  · rw [hmetrics, List.count_append]
    cases b with
    | true => exact h.rejected
    | false => exact toNat_succ_of_mod h.rejected

end Ledger

/-! ## Accounts -/

namespace Session

/-- What a task shows of itself: the function it was done for, the rejections of its pass,
and the report of a validation. -/
structure Account where
  function : String
  rejections : List Rejection
  report? : Option Report

def Account.noted (a : Account) : List (String × Rejection) := a.rejections.map (a.function, ·)

def Account.verdicts (a : Account) : List Bool := a.report?.toList.map Report.delegable

/-- The account of a task.  A validation that is a violation has not begun. -/
def account (facts : FactTable) (t : Tracker) (session : Session) : Task → Account
  | .validation function facet root op =>
      match session.validate t ⟨function, facts, facet⟩ root op with
      | .ok (report, _) => ⟨function.name, report.rejections, some report⟩
      | .error _ => ⟨function.name, [], none⟩
  | .pass function blocks =>
      ⟨function.name, (askAll function facts blocks session.newPass).2.rejections, none⟩

/-- The accounts of a run. -/
def accounts (facts : FactTable) (t : Tracker) : List Task → Session → List Account
  | [], _ => []
  | task :: tasks, session =>
      session.account facts t task :: accounts facts t tasks (session.perform facts t task).2

/-- The task is a validation for a function with a name. -/
def Task.validates : Task → Bool
  | .validation function .. => function.name ≠ ""
  | .pass .. => false

section

variable {t : Tracker} {session : Session} {noted : List (String × Rejection)}
  {verdicts : List Bool}

/-- A validation for a function with a name has a report, and its account is that of the
pass. -/
theorem validation_account (facts : FactTable) (t : Tracker) (session : Session)
    {function : DelegableFunction} (hn : function.name ≠ "") (facet : Facet) (root : Expr)
    (op : Option Strategy) :
    ∃ (v : Verdict) (p : Pass),
      ((⟨function, facts, facet⟩ : Scope).validateNode root op).Gives session.newPass v p ∧
      p.rejections = v.reason?.toList ∧
      session.account facts t (.validation function facet root op) =
        ⟨function.name, p.rejections, some (.ofVerdict function root v p.rejections)⟩ := by
  obtain ⟨v, p, hv, hrej, -⟩ := validateNode_once session ⟨function, facts, facet⟩ root op
  refine ⟨v, p, hv, hrej, ?_⟩
  have hrun := validate_eq (t := t) hn hv
  simp only [account, hrun]
  rfl

theorem validate_unnamed (t : Tracker) (session : Session) {s : Scope} (hn : s.function.name = "")
    (root : Expr) (op : Option Strategy) :
    session.validate t s root op = .error .unnamedFunction := by
  simp [validate, hn]

/-- **One task** keeps the balance: its account is added on one side, and what it tells on
the other. -/
theorem perform_balanced (facts : FactTable) (ht : t.CountsAndStores) (task : Task)
    (h : session.ledger.Balanced noted verdicts) :
    (session.perform facts t task).2.ledger.Balanced
      (noted ++ (session.account facts t task).noted)
      (verdicts ++ (session.account facts t task).verdicts) := by
  cases task with
  | pass function blocks =>
      rw [show (session.account facts t (.pass function blocks)).verdicts = [] from rfl,
        List.append_nil]
      exact h.tellAll ht function.name _
  | validation function facet root op =>
      by_cases hn : function.name = ""
      · have hrun := validate_unnamed t session (s := ⟨function, facts, facet⟩) hn root op
        simp only [Session.perform, account, hrun, Account.noted, Account.verdicts, List.map_nil,
          Option.toList_none, List.append_nil]
        exact h
      · obtain ⟨v, p, hv, -, haccount⟩ := validation_account facts t session hn facet root op
        have hrun : ((⟨function, facts, facet⟩ : Scope).validateNode root op).run session.newPass =
            .ok (v, p) := hv
        rw [haccount]
        simp only [Session.perform, validate, hn, if_false, hrun]
        exact (((h.logEvent _ _).tellAll ht function.name p.findings).recordVerdict ht
          v.isDelegable).logEvent _ _

/-- **A run** keeps the balance, task by task. -/
theorem run_balanced (facts : FactTable) (ht : t.CountsAndStores) (tasks : List Task)
    (h : session.ledger.Balanced noted verdicts) :
    (run facts t tasks session).2.ledger.Balanced
      (noted ++ (accounts facts t tasks session).flatMap Account.noted)
      (verdicts ++ (accounts facts t tasks session).flatMap Account.verdicts) := by
  induction tasks generalizing session noted verdicts with
  | nil =>
      show session.ledger.Balanced (noted ++ []) (verdicts ++ [])
      rw [List.append_nil, List.append_nil]
      exact h
  | cons task tasks ih =>
      have hrest := ih (perform_balanced facts ht task h)
      rw [List.append_assoc, List.append_assoc] at hrest
      exact hrest

end

end Session

/-! ## A node is rejected once in a pass -/

theorem Verdict.nodup_addTo (v : Verdict) {rs : List Rejection}
    (h : (rs.map Rejection.node).Nodup) : ((v.addTo rs).map Rejection.node).Nodup := by
  cases v with
  | delegable => exact h
  | rejected r =>
      rw [addTo]
      split
      next => exact h
      next hnew =>
        rw [List.map_append]
        refine List.nodup_append.mpr ⟨h, List.nodup_singleton _, ?_⟩
        intro a ha b hb hab
        obtain ⟨x, hx, rfl⟩ := List.mem_map.mp ha
        obtain rfl : b = r.node := List.mem_singleton.mp hb
        exact hnew (List.any_eq_true.mpr ⟨x, hx, decide_eq_true hab⟩)

section

variable {s : Scope} {p q : Pass}

/-- The rule answers, and notes one rejection at most, and none of a node that has one. -/
def RuleCall.Answers (c : RuleCall) (s : Scope) (p : Pass) : Prop :=
  ∃ a q, (c.run s).Gives p a q ∧ ∃ v : Verdict, q.rejections = v.addTo p.rejections

/-- The column rule, asked about a name outside the row. -/
def RuleCall.Violates (s : Scope) (name : String) : RuleCall → Prop
  | .column id n _ _ => s.facts.isRowScoped id = false ∧ n.text = name
  | _ => False

theorem RuleCall.run_of_violates {c : RuleCall} {name : String} (h : c.Violates s name) (p : Pass) :
    (c.run s).run p = .error (.columnOutsideRow name) := by
  cases c with
  | column id n op required =>
      obtain ⟨hrow, rfl⟩ := h
      show (RuleAnswer.verdict <$> s.columnRule id n op required).run p = _
      rw [Scope.columnRule, hrow]
      rfl
  | node | readiness | call | genericCall | serverSide | reject => exact h.elim

theorem Check.Settles.answers {c : Check Verdict} {N : NodeId → NodeKind → Prop}
    {M : NodeId → Prop} (h : c.Settles N M) (p : Pass) :
    ∃ a q, (RuleAnswer.verdict <$> c).Gives p a q ∧
      ∃ v : Verdict, q.rejections = v.addTo p.rejections := by
  obtain ⟨v, q, hv, hstep⟩ := h p
  exact ⟨_, q, Check.gives_map.mpr ⟨v, hv, rfl⟩, v, hstep.rejections⟩

/-- Whatever rule is asked, about whatever nodes, it answers; but for the column rule, asked
about a name outside the row. -/
theorem RuleCall.answers_or_violates (c : RuleCall) (s : Scope) (p : Pass) :
    c.Answers s p ∨ ∃ name, c.Violates s name := by
  have hsettled : ∀ e, (s.judge e).Settled (fun _ _ => True) (fun _ => True) := fun e =>
    Scope.judge_settled (fun _ _ => trivial) (fun _ _ => trivial) (Expr.self_mem_postorder e)
  have hargs : ∀ args, ∀ r ∈ s.judgeArgs args, r.Settled (fun _ _ => True) (fun _ => True) :=
    fun args => Scope.forall_mem_judgeArgs fun a _ => hsettled a
  cases c with
  | node e op => exact Or.inl (((hsettled e).verdict op).answers p)
  | readiness id k =>
      exact Or.inl ((Scope.settles_readiness (N := fun _ _ => True) (M := fun _ => True)
        trivial).answers p)
  | column id name op required =>
      cases hrow : s.facts.isRowScoped id with
      | true =>
          exact Or.inl ((Scope.settles_columnRule (N := fun _ _ => True) (M := fun _ => True) hrow
            trivial).answers p)
      | false => exact Or.inr ⟨name.text, hrow, rfl⟩
  | call id args => exact Or.inl ((Scope.settles_callRule trivial (hargs args)).answers p)
  | genericCall id args allowVarying =>
      exact Or.inl ((Scope.settles_genericCall trivial (hargs args)).answers p)
  | serverSide f args =>
      obtain ⟨b, q, hb, hstep⟩ := Scope.serverSide_settles (hargs args) p
      refine Or.inl ⟨_, q, Check.gives_map.mpr ⟨b, hb, rfl⟩, ?_⟩
      rcases hstep with hstep | ⟨-, r, hstep⟩
      · exact ⟨.delegable, hstep.rejections⟩
      · exact ⟨.rejected r, hstep.rejections⟩
  | reject r =>
      exact Or.inl ((Check.settles_reject (N := fun _ _ => True) (M := fun _ => True)
        trivial).answers p)

theorem RuleCall.run_adds {c : RuleCall} {a : RuleAnswer} (h : (c.run s).Gives p a q) :
    ∃ v : Verdict, q.rejections = v.addTo p.rejections := by
  rcases c.answers_or_violates s p with ⟨a', q', h', hadds⟩ | ⟨name, hviolates⟩
  · obtain ⟨-, rfl⟩ := h.det h'
    exact hadds
  · cases (RuleCall.run_of_violates hviolates p).symm.trans h

theorem RuleCall.runAll_nodup {calls : List RuleCall} (h : (p.rejections.map Rejection.node).Nodup) :
    ((RuleCall.runAll s calls p).2.rejections.map Rejection.node).Nodup := by
  induction calls generalizing p with
  | nil => exact h
  | cons c calls ih =>
      cases hrun : (c.run s).run p with
      | error v =>
          rw [Session.runAll_cons_error hrun]
          exact ih h
      | ok x =>
          obtain ⟨a, m⟩ := x
          have hgives : (c.run s).Gives p a m := hrun
          obtain ⟨v, hv⟩ := RuleCall.run_adds hgives
          rw [Session.runAll_cons_ok hgives]
          refine ih ?_
          rw [hv]
          exact v.nodup_addTo h

end

namespace Session

theorem askAll_nodup {function : DelegableFunction} {facts : FactTable}
    {blocks : List (Facet × List RuleCall)} {p : Pass}
    (h : (p.rejections.map Rejection.node).Nodup) :
    ((askAll function facts blocks p).2.rejections.map Rejection.node).Nodup := by
  induction blocks generalizing p with
  | nil => exact h
  | cons b blocks ih => exact ih (RuleCall.runAll_nodup h)

theorem account_nodup (facts : FactTable) (t : Tracker) (session : Session) (task : Task) :
    ((session.account facts t task).rejections.map Rejection.node).Nodup := by
  cases task with
  | pass function blocks => exact askAll_nodup List.nodup_nil
  | validation function facet root op =>
      by_cases hn : function.name = ""
      · simp only [account, validate_unnamed t session (s := ⟨function, facts, facet⟩) hn root op]
        exact List.nodup_nil
      · obtain ⟨v, p, -, hrej, haccount⟩ := validation_account facts t session hn facet root op
        rw [haccount, hrej]
        cases v with
        | delegable => exact List.nodup_nil
        | rejected r => exact List.nodup_singleton r.node

/-! ## The books -/

variable {facts : FactTable} {t : Tracker}

theorem nodup_of_mem_accounts {tasks : List Task} {session : Session} :
    ∀ a ∈ accounts facts t tasks session, (a.rejections.map Rejection.node).Nodup := by
  induction tasks generalizing session with
  | nil => exact fun a h => absurd h List.not_mem_nil
  | cons task tasks ih => exact List.forall_mem_cons.mpr ⟨account_nodup facts t session task, ih⟩

/-- There is a report of a task iff it is a validation for a function with a name. -/
theorem length_reports (tasks : List Task) (session : Session) :
    ((accounts facts t tasks session).filterMap Account.report?).length =
      tasks.countP Task.validates := by
  induction tasks generalizing session with
  | nil => rfl
  | cons task tasks ih =>
      have hhere : (session.account facts t task).report?.isSome = task.validates := by
        cases task with
        | pass function blocks => rfl
        | validation function facet root op =>
            by_cases hn : function.name = ""
            · simp only [account,
                validate_unnamed t session (s := ⟨function, facts, facet⟩) hn root op]
              simp [Task.validates, hn]
            · obtain ⟨v, p, -, -, haccount⟩ := validation_account facts t session hn facet root op
              rw [haccount]
              simp [Task.validates, hn]
      rw [accounts, List.filterMap_cons, List.countP_cons, ← hhere,
        ← ih (session.perform facts t task).2]
      cases (session.account facts t task).report? <;> simp

theorem flatMap_verdicts (as : List Account) :
    as.flatMap Account.verdicts = (as.filterMap Account.report?).map Report.delegable := by
  induction as with
  | nil => rfl
  | cons a as ih =>
      rw [List.flatMap_cons, List.filterMap_cons, ih, Account.verdicts]
      cases a.report? <;> rfl

/-- **Session accounting.**  Over a run from an empty ledger, with a tracker that counts and
stores, and with fewer increments than a counter can hold: a pass rejects a node once; the
store holds exactly what the passes noted, in order; the counters count it; and the messages
are the first of each node and key. -/
theorem run_accounts (facts : FactTable) (t : Tracker) (marks : List NodeId) (tasks : List Task)
    (ht : t.CountsAndStores) :
    let accounts := accounts facts t tasks { marks := marks }
    let noted := accounts.flatMap Account.noted
    let reports := accounts.filterMap Account.report?
    let after := (run facts t tasks { marks := marks }).2.ledger
    2 * tasks.countP Task.validates + noted.length < 2 ^ 64 →
      (∀ a ∈ accounts, (a.rejections.map Rejection.node).Nodup) ∧
      after.entries.map (fun e => (e.status, e.node, e.kind, e.context, e.function)) =
        noted.map (fun n => (n.2.status, n.2.node, n.2.kind, n.2.context, n.1)) ∧
      (∀ s, after.metrics.count s = (after.entries.filter fun e => e.status = s).length) ∧
      after.metrics.validations.toNat = tasks.countP Task.validates ∧
      after.metrics.validations.toNat =
        after.metrics.delegable.toNat + after.metrics.rejected.toNat ∧
      after.metrics.rejected.toNat = (reports.filter fun r => !r.delegable).length ∧
      after.diagnostics =
        (noted.map fun n => ⟨.warning, n.2.node, n.2.hint.key, n.2.hint.message⟩).eraseDupsBy
          (fun a b => a.node = b.node && a.key = b.key) := by
  intro accounts noted reports after hfew
  have hbalance : after.Balanced noted (reports.map Report.delegable) := by
    have hstart : ({ marks := marks } : Session).ledger.Balanced [] [] := Ledger.balanced_empty
    have h := run_balanced facts ht tasks hstart
    rw [flatMap_verdicts] at h
    exact h
  have hlength : reports.length = tasks.countP Task.validates := length_reports tasks _
  have hverdicts : (reports.map Report.delegable).count true +
      (reports.map Report.delegable).count false = reports.length := by
    rw [← List.length_map Report.delegable]
    exact List.count_true_add_count_false _
  have hvalidations : after.metrics.validations.toNat = tasks.countP Task.validates := by
    rw [hbalance.validations, List.length_map, hlength, Nat.mod_eq_of_lt (by omega)]
  have hdelegable := hbalance.delegable
  have hrejected := hbalance.rejected
  rw [Nat.mod_eq_of_lt (by omega)] at hdelegable hrejected
  refine ⟨nodup_of_mem_accounts, hbalance.entries, ?_, hvalidations, by omega, ?_,
    hbalance.diagnostics⟩
  · intro s
    have hstored : (after.entries.filter fun e => e.status = s).length =
        noted.countP fun n => n.2.status = s := by
      have h := congrArg (List.countP fun c => c.1 = s) hbalance.entries
      rw [List.countP_map, List.countP_map] at h
      rw [← List.countP_eq_length_filter]
      exact h
    have hfits : noted.countP (fun n => n.2.status = s) ≤ noted.length := List.countP_le_length
    rw [hbalance.counts s, hstored, Nat.mod_eq_of_lt (by omega)]
  · have hpred : (· == false) ∘ Report.delegable = fun r => !r.delegable := by
      funext r
      exact beq_false r.delegable
    rw [hrejected, List.count, List.countP_map, List.countP_eq_length_filter, hpred]

end Session

/-! ## A run with every kind of forgetting

The column `Name` is refused for sorting, then by hand for another reason, which the formula
that is judged after it in the same pass does not repeat, and at last for sorting again. -/

namespace Sample

def books : Tracker := ⟨[.metrics, .memory], fun _ => default⟩

def byHand : Rejection := ⟨.other, 0, .firstName, .suggestRemoteExecution "Sort", "by hand"⟩

def audited : List Session.Task :=
  [.validation .sort facet formula none,
   .pass .sort [(facet, [.reject byHand, .node formula none])],
   .validation .filter facet formula none,
   .validation .sort facet formula none]

theorem audited_accounts :
    books.CountsAndStores ∧
      2 * audited.countP Session.Task.validates +
        ((Session.accounts facts books audited {}).flatMap Session.Account.noted).length < 2 ^ 64 ∧
      (Session.run facts books audited {}).2.ledger.entries.length = 3 ∧
      (Session.run facts books audited {}).2.ledger.diagnostics.length = 2 ∧
      (Session.run facts books audited {}).2.ledger.metrics.validations.toNat =
        audited.countP Session.Task.validates ∧
      ∀ s, (Session.run facts books audited {}).2.ledger.metrics.count s =
        ((Session.run facts books audited {}).2.ledger.entries.filter fun e => e.status = s).length := by
  have hbooks : books.CountsAndStores := ⟨rfl, rfl⟩
  have hfew : 2 * audited.countP Session.Task.validates +
      ((Session.accounts facts books audited {}).flatMap Session.Account.noted).length < 2 ^ 64 := by
    decide
  obtain ⟨-, -, hcounts, hvalidations, -, -, -⟩ :=
    Session.run_accounts facts books [] audited hbooks hfew
  exact ⟨hbooks, hfew, rfl, rfl, hvalidations, hcounts⟩

end Sample

end Delegability
