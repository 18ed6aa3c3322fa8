/-
# `Delegability.Proofs.Transcript` — what a validation tells, word by word

A validation tells through three channels: messages at nodes, calls of the
tracker, and the log.  What it tells is one list of `Telling`s that does not depend
on the tracker; the ledger afterwards is the ledger before, having heard that list.
So a statement about the calls a tracker receives is a statement about the list, and
it holds whatever the tracker does with them.

    session.ledger  ──hear, telling by telling──▸  after.ledger        (`validate_eq`)

Main result: a validation that fails tells of exactly one rejection, the same on all
channels, and a validation that succeeds tells of none (`validate_tells_of_one`).
The findings of a pass that starts without any are, by `judge_settled`, at most one
rejection; the rest is projecting the list onto the channels.
-/
import Delegability.Proofs.Outcome
import Delegability.Proofs.Soundness

namespace Delegability

/-! ## Tellings -/

/-- What a tracker is called with. -/
inductive TrackerCall where
  | record (e : Entry)
  | verdict (delegable : Bool)
deriving DecidableEq

/-- One thing told: a record of the log, a message at a node, or a call of the
tracker. -/
inductive Telling where
  | log (r : LogRecord)
  | attach (d : Diagnostic)
  | call (c : TrackerCall)

namespace Telling

def call? : Telling → Option TrackerCall
  | .call c => some c
  | _ => none

def diagnostic? : Telling → Option Diagnostic
  | .attach d => some d
  | _ => none

end Telling

namespace Ledger

/-- The ledger after one thing has been told, with a tracker that fans out to
`sinks`. -/
def hear (sinks : List Sink) (l : Ledger) : Telling → Ledger
  | .log r => l.logRecord r
  | .attach d => l.attach d
  | .call (.record e) => l.record sinks e
  | .call (.verdict b) => l.recordVerdict sinks b

/-! ## A tracker touches neither messages nor stamps -/

theorem put_diagnostics (e : Entry) (l : Ledger) (s : Sink) :
    (put e l s).diagnostics = l.diagnostics := by
  cases s <;> rfl

theorem put_stamped (e : Entry) (l : Ledger) (s : Sink) : (put e l s).stamped = l.stamped := by
  cases s <;> rfl

theorem see_diagnostics (b : Bool) (l : Ledger) (s : Sink) :
    (see b l s).diagnostics = l.diagnostics := by
  cases s <;> rfl

theorem foldl_put_diagnostics (e : Entry) : ∀ (sinks : List Sink) (l : Ledger),
    (sinks.foldl (put e) l).diagnostics = l.diagnostics
  | [], _ => rfl
  | s :: sinks, l => (foldl_put_diagnostics e sinks _).trans (put_diagnostics e l s)

theorem foldl_put_stamped (e : Entry) : ∀ (sinks : List Sink) (l : Ledger),
    (sinks.foldl (put e) l).stamped = l.stamped
  | [], _ => rfl
  | s :: sinks, l => (foldl_put_stamped e sinks _).trans (put_stamped e l s)

theorem recordVerdict_diagnostics (b : Bool) : ∀ (sinks : List Sink) (l : Ledger),
    (l.recordVerdict sinks b).diagnostics = l.diagnostics
  | [], _ => rfl
  | s :: sinks, l => (recordVerdict_diagnostics b sinks _).trans (see_diagnostics b l s)

/-- A channel that takes one step for each telling that is its own, and none for the others,
depends on its own tellings only. -/
theorem foldl_hear_of_step {α β : Type} {sinks : List Sink} (channel : Ledger → β)
    (own : Telling → Option α) (step : β → α → β)
    (h : ∀ l t, channel (hear sinks l t) = (own t).elim (channel l) (step (channel l)))
    (ts : List Telling) (l : Ledger) :
    channel (ts.foldl (hear sinks) l) = (ts.filterMap own).foldl step (channel l) := by
  induction ts generalizing l with
  | nil => rfl
  | cons t ts ih =>
      rw [List.foldl_cons, ih, h]
      cases ht : own t with
      | none => rw [List.filterMap_cons_none ht, Option.elim_none]
      | some a => rw [List.filterMap_cons_some ht, Option.elim_some, List.foldl_cons]

/-- Of all that is told, only messages reach the messages. -/
theorem foldl_hear_diagnostics (sinks : List Sink) (ts : List Telling) (l : Ledger) :
    (ts.foldl (hear sinks) l).diagnostics =
      (ts.filterMap Telling.diagnostic?).foldl Diagnostics.ensure l.diagnostics := by
  refine foldl_hear_of_step Ledger.diagnostics Telling.diagnostic? Diagnostics.ensure ?_ ts l
  intro l t
  match t with
  | .log r => rfl
  | .attach d => rfl
  | .call (.record e) => exact foldl_put_diagnostics e sinks _
  | .call (.verdict b) => exact recordVerdict_diagnostics b sinks l

end Ledger

/-! ## What findings are told as -/

/-- How a finding is told; `stamp` is for its entry. -/
def Finding.tellings (stamp : Stamp) (function : String) : Finding → List Telling
  | .rejection r =>
      [.attach (.ofHint r.node r.hint), .call (.record (.ofRejection stamp function r)),
       .log (.ofEvent .rejected [("context", r.context), ("function", function),
         ("node", NodeId.text r.node), ("status", r.status.text)])]
  | .unknownEntity identity =>
      [.log (.ofEvent .entityMetadataMissing [("entity", identity), ("function", function)])]

/-- How findings are told, if `n` entries have been stamped before. -/
def Finding.transcript (stamp : Nat → Stamp) (function : String) : Nat → List Finding → List Telling
  | _, [] => []
  | n, f :: fs =>
      f.tellings (stamp n) function ++
        transcript stamp function (n + f.rejection?.toList.length) fs

/-- The calls for a list of rejections. -/
def Rejection.calls (stamp : Nat → Stamp) (function : String) : Nat → List Rejection → List TrackerCall
  | _, [] => []
  | n, r :: rs => .record (.ofRejection (stamp n) function r) :: calls stamp function (n + 1) rs

theorem Ledger.tellAll_eq_hear (t : Tracker) (function : String) : ∀ (fs : List Finding) (l : Ledger),
    l.tellAll t function fs =
      (Finding.transcript t.stamp function l.stamped fs).foldl (Ledger.hear t.sinks) l
  | [], _ => rfl
  | f :: fs, l => by
      have htell : l.tell t function f =
          (f.tellings (t.stamp l.stamped) function).foldl (Ledger.hear t.sinks) l := by
        cases f <;> rfl
      have hstamped : (l.tell t function f).stamped = l.stamped + f.rejection?.toList.length := by
        cases f with
        | rejection r => exact Ledger.foldl_put_stamped _ t.sinks _
        | unknownEntity identity => rfl
      have ih := Ledger.tellAll_eq_hear t function fs (l.tell t function f)
      rw [hstamped, htell] at ih
      rw [Finding.transcript, List.foldl_append, ← ih, ← htell]
      rfl

theorem Finding.calls_transcript (stamp : Nat → Stamp) (function : String) :
    ∀ (fs : List Finding) (n : Nat),
      (Finding.transcript stamp function n fs).filterMap Telling.call? =
        Rejection.calls stamp function n (fs.filterMap Finding.rejection?)
  | [], _ => rfl
  | .rejection r :: fs, n =>
      congrArg (TrackerCall.record (.ofRejection (stamp n) function r) :: ·)
        (calls_transcript stamp function fs (n + 1))
  | .unknownEntity _ :: fs, n => calls_transcript stamp function fs n

theorem Finding.diagnostics_transcript (stamp : Nat → Stamp) (function : String) :
    ∀ (fs : List Finding) (n : Nat),
      (Finding.transcript stamp function n fs).filterMap Telling.diagnostic? =
        (fs.filterMap Finding.rejection?).map fun r => Diagnostic.ofHint r.node r.hint
  | [], _ => rfl
  | .rejection r :: fs, n =>
      congrArg (Diagnostic.ofHint r.node r.hint :: ·)
        (diagnostics_transcript stamp function fs (n + 1))
  | .unknownEntity _ :: fs, n => diagnostics_transcript stamp function fs n

/-- Attaching a message leaves one of its node and key: it was there before and nothing
changes, or the message is added at the end. -/
theorem Diagnostics.ensure_cases (ds : Diagnostics) (d : Diagnostic) :
    (∃ x ∈ ds.ensure d, x.node = d.node ∧ x.key = d.key) ∧
      ((ds.ensure d = ds ∧ ∃ x ∈ ds, x.node = d.node ∧ x.key = d.key) ∨
        ds.ensure d = ds ++ [d]) := by
  unfold ensure
  by_cases h : ds.covers d = true
  · rw [if_pos h]
    obtain ⟨x, hx, hc⟩ := List.any_eq_true.mp h
    have hxd : x.node = d.node ∧ x.key = d.key := by
      simp only [Diagnostic.clashes, Bool.and_eq_true, decide_eq_true_eq] at hc
      exact ⟨hc.1.symm, hc.2.symm⟩
    exact ⟨⟨x, hx, hxd⟩, Or.inl ⟨rfl, x, hx, hxd⟩⟩
  · rw [if_neg h]
    exact ⟨⟨d, List.mem_append_right _ List.mem_cons_self, rfl, rfl⟩, Or.inr rfl⟩

/-! ## Validations -/

namespace Session

/-- All that a validation tells, by its verdict and what the pass has found. -/
def tellings (stamp : Nat → Stamp) (function : String) (root : Expr) (n : Nat) (v : Verdict)
    (p : Pass) : List Telling :=
  .log (.ofEvent .checkBegin [("function", function), ("node", NodeId.text root.id)]) ::
    (Finding.transcript stamp function n p.findings ++
      [.call (.verdict v.isDelegable),
       .log (.ofEvent .checkComplete [("delegable", Context.ofBool v.isDelegable),
         ("function", function), ("node", NodeId.text root.id)])])

/-- A validation whose rules end in a verdict reports it and tells its transcript. -/
theorem validate_eq {session : Session} {t : Tracker} {s : Scope} {root : Expr}
    {op : Option Strategy} {v : Verdict} {p : Pass} (hn : s.function.name ≠ "")
    (h : (s.validateNode root op).Gives session.newPass v p) :
    session.validate t s root op = .ok (.ofVerdict s.function root v p.rejections,
      ⟨p.marks, (tellings t.stamp s.function.name root session.ledger.stamped v p).foldl
        (Ledger.hear t.sinks) session.ledger⟩) := by
  have hrun : (s.validateNode root op).run session.newPass = .ok (v, p) := h
  unfold validate
  simp only [hn, if_false, hrun]
  show Except.ok _ = Except.ok _
  simp only [finishPass, logEvent, recordVerdict, Ledger.tellAll_eq_hear, tellings,
    List.foldl_cons, List.foldl_append, List.foldl_nil]
  rfl

theorem calls_tellings (stamp : Nat → Stamp) (function : String) (root : Expr) (n : Nat)
    (v : Verdict) (p : Pass) :
    (tellings stamp function root n v p).filterMap Telling.call? =
      Rejection.calls stamp function n p.rejections ++ [.verdict v.isDelegable] := by
  unfold tellings
  rw [List.filterMap_cons_none rfl, List.filterMap_append, Finding.calls_transcript]
  rfl

theorem diagnostics_tellings (stamp : Nat → Stamp) (function : String) (root : Expr) (n : Nat)
    (v : Verdict) (p : Pass) :
    (tellings stamp function root n v p).filterMap Telling.diagnostic? =
      p.rejections.map fun r => Diagnostic.ofHint r.node r.hint := by
  unfold tellings
  rw [List.filterMap_cons_none rfl, List.filterMap_append, Finding.diagnostics_transcript]
  exact List.append_nil _

/-- A pass that starts without findings ends with the rejection it ends in, and no
other. -/
theorem validateNode_once (session : Session) (s : Scope) (root : Expr) (op : Option Strategy) :
    ∃ v p, (s.validateNode root op).Gives session.newPass v p ∧
      p.rejections = v.reason?.toList ∧
      ∀ r, v = .rejected r → ∃ x ∈ root.postorder, x.id = r.node ∧ x.kind = r.kind := by
  have hset : (s.judge root).Settled
      (fun id k => ∃ x ∈ root.postorder, x.id = id ∧ x.kind = k) (fun _ => True) :=
    Scope.judge_settled (fun x hx => ⟨x, hx, rfl, rfl⟩) (fun _ _ => trivial)
      (Expr.self_mem_postorder root)
  obtain ⟨v, p, hv, hs⟩ := hset.verdict op session.newPass
  refine ⟨v, p, hv, ?_, hs.node⟩
  rw [hs.rejections]
  cases v <;> rfl

/-- All that is told where nothing is found: that the validation begins, its verdict, and
that it is complete. -/
def quiet (function : String) (root : Expr) : List Telling :=
  [.log (.ofEvent .checkBegin [("function", function), ("node", NodeId.text root.id)]),
   .call (.verdict true),
   .log (.ofEvent .checkComplete [("delegable", Context.ofBool true), ("function", function),
     ("node", NodeId.text root.id)])]

/-- The formula is delegable, and nothing else is told; `after` is the session then. -/
def DelegatesQuietly (session : Session) (t : Tracker) (s : Scope) (root : Expr)
    (op : Option Strategy) (after : Session) : Prop :=
  ∃ report, session.validate t s root op = .ok (report, after) ∧ report.delegable = true ∧
    report.status? = none ∧ report.rejections = [] ∧
    after.ledger = (quiet s.function.name root).foldl (Ledger.hear t.sinks) session.ledger

/-- What is accepted is delegable quietly, and leaves the marks of its pass behind. -/
theorem delegatesQuietly_of_accepts {session : Session} {t : Tracker} {s : Scope} {root : Expr}
    {op : Option Strategy} {q : Pass} (hn : s.function.name ≠ "")
    (h : (s.validateNode root op).Accepts session.newPass q) :
    ∃ after, session.DelegatesQuietly t s root op after ∧ after.marks = q.marks := by
  have hfound : q.findings = [] := (Scope.judge_silent s root).verdict op session.newPass q h
  have hrej : q.rejections = [] := by
    rw [Pass.rejections, hfound]
    rfl
  refine ⟨_, ⟨_, validate_eq hn h, rfl, rfl, hrej, ?_⟩, rfl⟩
  simp only [tellings, hfound]
  rfl

theorem validate_of_reject {session : Session} {t : Tracker} {s : Scope} {root : Expr}
    {op : Option Strategy} {r : Rejection} (hn : s.function.name ≠ "")
    (h : s.validateNode root op = Check.reject r) :
    ∃ after, session.validate t s root op =
      .ok (.ofVerdict s.function root (.rejected r) [r], after) := by
  have hgives : (s.validateNode root op).Gives session.newPass (.rejected r)
      (session.newPass.noteRejection r) := by
    rw [h]
    rfl
  exact ⟨_, validate_eq hn hgives⟩

/-- **One rejection, on every channel.**  A validation for a function with a name ends
with a report.  What it tells is one list for all trackers: a call with the verdict,
after a call with the only rejection if there is one, and that rejection's message at
its node. -/
theorem validate_tells_of_one (session : Session) (stamp : Nat → Stamp) (s : Scope) (root : Expr)
    (op : Option Strategy) (hn : s.function.name ≠ "") :
    ∃ (report : Report) (told : List Telling),
      (report.delegable = true ↔ report.rejections = []) ∧
      ∀ sinks, ∃ after, session.validate ⟨sinks, stamp⟩ s root op = .ok (report, after) ∧
        after.ledger = told.foldl (Ledger.hear sinks) session.ledger ∧
        (report.delegable = true →
          told.filterMap Telling.call? = [.verdict true] ∧
          after.ledger.diagnostics = session.ledger.diagnostics) ∧
        (report.delegable = false →
          ∃ r, report.rejections = [r] ∧ report.status? = some r.status ∧
            (∃ x ∈ root.postorder, x.id = r.node ∧ x.kind = r.kind) ∧
            told.filterMap Telling.call? =
              [.record ⟨stamp session.ledger.stamped, r.status, r.node, r.kind, s.function.name,
                r.context⟩, .verdict false] ∧
            (∃ d ∈ after.ledger.diagnostics, d.node = r.node ∧ d.key = r.hint.key) ∧
            ((after.ledger.diagnostics = session.ledger.diagnostics ∧
                ∃ d ∈ session.ledger.diagnostics, d.node = r.node ∧ d.key = r.hint.key) ∨
              after.ledger.diagnostics = session.ledger.diagnostics ++
                [⟨.warning, r.node, r.hint.key, r.hint.message⟩])) := by
  obtain ⟨v, p, hv, hrej, hnode⟩ := validateNode_once session s root op
  -- the list is chosen before the sinks, so it cannot be made up to suit them
  refine ⟨.ofVerdict s.function root v p.rejections,
    tellings stamp s.function.name root session.ledger.stamped v p, ?_, fun sinks => ?_⟩
  · rw [hrej]
    cases v <;> simp [Report.ofVerdict, Verdict.isDelegable, Verdict.reason?]
  refine ⟨_, validate_eq hn hv, rfl, ?_, ?_⟩
  · intro hd
    cases v with
    | rejected r => cases hd
    | delegable =>
        rw [calls_tellings, Ledger.foldl_hear_diagnostics, diagnostics_tellings, hrej]
        exact ⟨rfl, rfl⟩
  · intro hd
    cases v with
    | delegable => cases hd
    | rejected r =>
        rw [calls_tellings, Ledger.foldl_hear_diagnostics, diagnostics_tellings]
        simp only [Report.ofVerdict, hrej]
        refine ⟨r, rfl, rfl, hnode r rfl, rfl, ?_⟩
        exact Diagnostics.ensure_cases session.ledger.diagnostics (.ofHint r.node r.hint)

end Session

/-! ## A sort that is refused

`Sample.formula` again, under a function that the columns do not serve. -/

namespace Sample

def sorting : Scope := ⟨.sort, facts, facet⟩

theorem sorting_tells_of_one :
    sorting.function.name ≠ "" ∧
    ∃ (report : Report) (after : Session) (told : List Telling) (r : Rejection),
      ({} : Session).validate silent sorting formula none = .ok (report, after) ∧
      report.delegable = false ∧ report.rejections = [r] ∧
      after.ledger = told.foldl (Ledger.hear []) {} ∧
      told.filterMap Telling.call? =
        [.record ⟨default, r.status, r.node, r.kind, "Sort", r.context⟩, .verdict false] := by
  have hn : sorting.function.name ≠ "" := by decide
  obtain ⟨report, told, -, h⟩ :=
    Session.validate_tells_of_one {} silent.stamp sorting formula none hn
  obtain ⟨after, hrun, hledger, -, hfail⟩ := h []
  have hval : (({} : Session).validate silent sorting formula none).map (·.1.delegable) =
      .ok false := rfl
  have hd : report.delegable = false := by
    rw [show ({} : Session).validate silent sorting formula none = .ok (report, after) from hrun]
      at hval
    exact Except.ok.inj hval
  obtain ⟨r, hr, -, -, hcalls, -⟩ := hfail hd
  exact ⟨hn, report, after, told, r, hrun, hd, hr, hledger, hcalls⟩

end Sample

end Delegability
