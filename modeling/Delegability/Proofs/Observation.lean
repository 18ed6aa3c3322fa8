/-
# `Delegability.Proofs.Observation` — being watched changes nothing

Two things can be set about how an analysis is watched: where its entries go, and which records
of the log are written.  Neither reaches the rules.  What is told is one list, the same in every
mode (`Session.tellings`), and each channel takes from that list what is its own:

    messages    those attached                             in every mode
    counters    the calls, each once                       in every mode: all modes count
    store       the recorded entries                       only where the mode stores
    log         the records of events                      as long as no sink writes there too

So analyses with equal features show the same (`Analysis.shown`), the store is the list of
rejections or empty, and the log of a validation is known word by word (`Report.narrative`):
the beginning, a warning if an entity is missing, the rejection if there is one, the end.

Main result: `Analysis.shown_whoever_watches`.
-/
import Delegability.Proofs.Accounting
import Delegability.Proofs.Findings
import Delegability.Proofs.Resolution

namespace Delegability

/-! ## What each channel takes -/

namespace Telling

def record? : Telling → Option LogRecord
  | .log r => some r
  | _ => none

def entry? : Telling → Option Entry
  | .call (.record e) => some e
  | _ => none

end Telling

/-- The counters after a call of a tracker that counts. -/
def Metrics.hear (m : Metrics) : TrackerCall → Metrics
  | .record e => m.countRejection e.status
  | .verdict b => m.countVerdict b

namespace Ledger

variable {sinks : List Sink}

theorem foldl_hear_metrics (h : sinks.count .metrics = 1) (ts : List Telling) (l : Ledger) :
    (ts.foldl (hear sinks) l).metrics =
      (ts.filterMap Telling.call?).foldl Metrics.hear l.metrics := by
  refine foldl_hear_of_step Ledger.metrics Telling.call? Metrics.hear ?_ ts l
  intro l t
  match t with
  | .log r => rfl
  | .attach d => rfl
  | .call (.record e) =>
      show (l.record sinks e).metrics = _
      rw [record, foldl_put_metrics, h]
      rfl
  | .call (.verdict b) =>
      show (l.recordVerdict sinks b).metrics = _
      rw [recordVerdict_metrics, h]
      rfl

theorem foldl_hear_entries (ts : List Telling) (l : Ledger) :
    (ts.foldl (hear sinks) l).entries =
      l.entries ++ (ts.filterMap Telling.entry?).flatMap (List.replicate (sinks.count .memory)) := by
  rw [List.flatMap_def, ← List.foldl_append_eq_append]
  refine foldl_hear_of_step Ledger.entries Telling.entry? _ ?_ ts l
  intro l t
  match t with
  | .log r => rfl
  | .attach d => rfl
  | .call (.record e) => exact foldl_put_entries e sinks _
  | .call (.verdict b) => exact recordVerdict_entries b sinks l

theorem foldl_put_log (h : ∀ severity, .log severity ∉ sinks) (e : Entry) (l : Ledger) :
    (sinks.foldl (put e) l).log = l.log := by
  induction sinks generalizing l with
  | nil => rfl
  | cons s sinks ih =>
      rw [List.foldl_cons, ih fun severity hs => h severity (List.mem_cons_of_mem s hs)]
      cases s with
      | log severity => exact absurd List.mem_cons_self (h severity)
      | metrics | memory | null => rfl

theorem recordVerdict_log (b : Bool) (sinks : List Sink) (l : Ledger) :
    (l.recordVerdict sinks b).log = l.log := by
  unfold recordVerdict
  induction sinks generalizing l with
  | nil => rfl
  | cons s sinks ih =>
      rw [List.foldl_cons, ih]
      cases s <;> rfl

theorem foldl_hear_log (h : ∀ severity, .log severity ∉ sinks) (ts : List Telling) (l : Ledger) :
    (ts.foldl (hear sinks) l).log = l.log ++ ts.filterMap Telling.record? := by
  rw [← List.flatMap_singleton' (ts.filterMap Telling.record?), List.flatMap_def,
    ← List.foldl_append_eq_append]
  refine foldl_hear_of_step Ledger.log Telling.record? _ ?_ ts l
  intro l t
  match t with
  | .log r => rfl
  | .attach d => rfl
  | .call (.record e) => exact foldl_put_log h e _
  | .call (.verdict b) => exact recordVerdict_log b sinks l

end Ledger

/-! ## The log of a validation -/

/-- The record of a finding. -/
def Finding.record (function : String) : Finding → LogRecord
  | .rejection r => .ofEvent .rejected [("context", r.context), ("function", function),
      ("node", NodeId.text r.node), ("status", r.status.text)]
  | .unknownEntity identity =>
      .ofEvent .entityMetadataMissing [("entity", identity), ("function", function)]

theorem Finding.records_transcript (stamp : Nat → Stamp) (function : String) :
    ∀ (fs : List Finding) (n : Nat),
      (Finding.transcript stamp function n fs).filterMap Telling.record? =
        fs.map (Finding.record function)
  | [], _ => rfl
  | .rejection r :: fs, n =>
      congrArg (Finding.record function (.rejection r) :: ·)
        (records_transcript stamp function fs (n + 1))
  | .unknownEntity identity :: fs, n =>
      congrArg (Finding.record function (.unknownEntity identity) :: ·)
        (records_transcript stamp function fs n)

/-- Records of one severity are kept together or dropped together. -/
theorem LogRecord.filter_of_severity {records : List LogRecord} {severity minimum : Severity}
    (h : ∀ r ∈ records, r.severity = severity) :
    records.filter (fun r => minimum ≤ r.severity) = if minimum ≤ severity then records else [] := by
  by_cases hle : minimum ≤ severity
  · rw [if_pos hle, List.filter_eq_self]
    intro r hr
    rw [h r hr]
    exact decide_eq_true hle
  · rw [if_neg hle, List.filter_eq_nil_iff]
    intro r hr
    rw [h r hr]
    exact fun hd => hle (of_decide_eq_true hd)

namespace Report

/-- The warning about a missing entity, if one is missing. -/
def warnings (report : Report) (missing : Option String) : List LogRecord :=
  missing.toList.map fun identity => (Finding.unknownEntity identity).record report.function

/-- The records of a validation: its beginning, the warning about a missing entity, the
rejections, and its end. -/
def narrative (report : Report) (missing : Option String) : List LogRecord :=
  .ofEvent .checkBegin [("function", report.function), ("node", NodeId.text report.root)] ::
    (report.warnings missing ++
      (report.rejections.map (fun r => (Finding.rejection r).record report.function) ++
      [.ofEvent .checkComplete [("delegable", Context.ofBool report.delegable),
        ("function", report.function), ("node", NodeId.text report.root)]]))

/-- Only the warning matters more than a trace, and nothing matters more than a warning. -/
theorem linesFrom_narrative (report : Report) (missing : Option String) (minimum : Severity) :
    LogRecord.linesFrom minimum (report.narrative missing) =
      (if minimum = .trace then report.narrative missing
        else if minimum ≤ .warn then report.warnings missing else []).map LogRecord.line := by
  refine congrArg (List.map LogRecord.line) ?_
  by_cases ht : minimum = .trace
  · rw [if_pos ht, List.filter_eq_self]
    intro r _
    rw [ht]
    exact decide_eq_true (Nat.zero_le r.severity.rank)
  · rw [if_neg ht]
    have hlow : ¬ minimum ≤ .trace := by
      cases minimum with
      | trace => exact absurd rfl ht
      | info | warn | error | fatal => decide
    have hwarnings : ∀ r ∈ report.warnings missing, r.severity = .warn := by
      intro x hx
      obtain ⟨identity, -, rfl⟩ := List.mem_map.mp hx
      rfl
    have hrejections : ∀ r ∈ report.rejections.map fun r =>
        (Finding.rejection r).record report.function, r.severity = .trace := by
      intro x hx
      obtain ⟨r, -, rfl⟩ := List.mem_map.mp hx
      rfl
    have hends : ∀ (e : Event) (fields : List (String × String)), e.severity = .trace →
        [LogRecord.ofEvent e fields].filter (fun r => minimum ≤ r.severity) = [] := by
      intro e fields he
      rw [LogRecord.filter_of_severity (List.forall_mem_singleton.mpr he), if_neg hlow]
    rw [narrative, ← List.singleton_append, List.filter_append, List.filter_append,
      List.filter_append, LogRecord.filter_of_severity hwarnings,
      LogRecord.filter_of_severity hrejections, if_neg hlow, hends _ _ rfl, hends _ _ rfl]
    exact List.append_nil _

end Report

namespace Session

theorem records_tellings (stamp : Nat → Stamp) (function : String) (root : Expr) (n : Nat)
    (v : Verdict) (p : Pass) :
    (tellings stamp function root n v p).filterMap Telling.record? =
      .ofEvent .checkBegin [("function", function), ("node", NodeId.text root.id)] ::
        (p.findings.map (Finding.record function) ++
          [.ofEvent .checkComplete [("delegable", Context.ofBool v.isDelegable),
            ("function", function), ("node", NodeId.text root.id)]]) := by
  have hmiddle := Finding.records_transcript stamp function p.findings n
  show _ :: List.filterMap Telling.record? (_ ++ _) = _
  rw [List.filterMap_append, hmiddle]
  rfl

/-- A validation for a function with a name, watched by no sink that writes to the log, adds its
narrative to the log.  There is a warning in it iff the rejection is of an unknown entity. -/
theorem validate_log (session : Session) {t : Tracker} {s : Scope} (root : Expr)
    (op : Option Strategy) (hn : s.function.name ≠ "") (ht : ∀ severity, .log severity ∉ t.sinks) :
    ∃ (report : Report) (after : Session) (missing : Option String),
      session.validate t s root op = .ok (report, after) ∧
      after.ledger.log = session.ledger.log ++ report.narrative missing ∧
      report.rejections.length = (if report.delegable then 0 else 1) ∧
      (∀ i, missing = some i ↔ ∃ r ∈ report.rejections, r.IsOfEntity i) ∧
      ∀ i, missing = some i → ∃ x ∈ root.postorder, s.missingEntity? x = some i ∧
        ∃ r ∈ report.rejections, x.id = r.node ∧ x.kind = r.kind := by
  obtain ⟨v, p, hv, -⟩ := validateNode_once session s root op
  have hfinds : (s.judge root).Finds fun id k i =>
      ∃ x ∈ root.postorder, s.missingEntity? x = some i ∧ x.id = id ∧ x.kind = k :=
    Scope.judge_finds (fun x hx i hi => ⟨x, hx, hi, rfl, rfl⟩) (Expr.self_mem_postorder root)
  have hfound := hfinds.verdict op session.newPass v p rfl hv
  have hrej : p.rejections = v.reason?.toList := hfound.rejections
  obtain ⟨missing, hfindings, hwarned, hnode⟩ := hfound.missing
  refine ⟨.ofVerdict s.function root v p.rejections, _, missing, validate_eq hn hv, ?_, ?_, ?_, ?_⟩
  · show ((tellings _ _ root _ v p).foldl (Ledger.hear t.sinks) session.ledger).log = _
    rw [Ledger.foldl_hear_log ht, records_tellings, hfindings, hrej, List.map_append, List.map_map,
      List.map_map, List.append_assoc]
    rfl
  · rw [hrej]
    cases v <;> rfl
  · rw [hrej]
    exact hwarned
  · rw [hrej]
    intro i hi
    obtain ⟨r, hr, x, hx, hmissing, hid, hkind⟩ := hnode i hi
    exact ⟨x, hx, hmissing, r, hr, hid, hkind⟩

end Session

/-! ## The store of an analysis -/

theorem Finding.contents_transcript (stamp : Nat → Stamp) (function : String) :
    ∀ (fs : List Finding) (n : Nat),
      ((Finding.transcript stamp function n fs).filterMap Telling.entry?).map Entry.content =
        (fs.filterMap Finding.rejection?).map fun r =>
          (r.status, r.node, r.kind, r.context, function)
  | [], _ => rfl
  | .rejection r :: fs, n =>
      congrArg ((r.status, r.node, r.kind, r.context, function) :: ·)
        (contents_transcript stamp function fs (n + 1))
  | .unknownEntity _ :: fs, n => contents_transcript stamp function fs n

theorem Session.contents_tellings (stamp : Nat → Stamp) (function : String) (root : Expr) (n : Nat)
    (v : Verdict) (p : Pass) :
    ((tellings stamp function root n v p).filterMap Telling.entry?).map Entry.content =
      p.rejections.map fun r => (r.status, r.node, r.kind, r.context, function) := by
  rw [tellings, List.filterMap_cons_none rfl, List.filterMap_append, List.map_append,
    Finding.contents_transcript]
  exact List.append_nil _

/-- The counters after a validation depend on its verdict alone. -/
theorem Session.metrics_tellings (stamp : Nat → Stamp) (function : String) (root : Expr) (n : Nat)
    {v : Verdict} {p : Pass} (h : p.rejections = v.reason?.toList) (m : Metrics) :
    ((tellings stamp function root n v p).filterMap Telling.call?).foldl Metrics.hear m =
      (v.status?.toList.foldl Metrics.countRejection m).countVerdict v.isDelegable := by
  rw [calls_tellings, h]
  cases v <;> rfl

/-- Whether a formula is delegable, why not, and what is counted: none of it depends on who
watches, as long as calls are counted once. -/
theorem Session.validate_shown (session : Session) (t t' : Tracker) (s : Scope) (root : Expr)
    (op : Option Strategy) (ht : t.sinks.count .metrics = 1) (ht' : t'.sinks.count .metrics = 1) :
    (session.validate t s root op).map
        (fun x => (x.1, x.2.ledger.diagnostics, x.2.ledger.metrics)) =
      (session.validate t' s root op).map
        (fun x => (x.1, x.2.ledger.diagnostics, x.2.ledger.metrics)) := by
  by_cases hn : s.function.name = ""
  · rw [validate_unnamed t session hn, validate_unnamed t' session hn]
  · obtain ⟨v, p, hv, hrej, -⟩ := validateNode_once session s root op
    rw [validate_eq hn hv, validate_eq hn hv]
    show Except.ok (_, _, _) = Except.ok (_, _, _)
    rw [Ledger.foldl_hear_diagnostics, Ledger.foldl_hear_diagnostics, diagnostics_tellings,
      diagnostics_tellings, Ledger.foldl_hear_metrics ht, Ledger.foldl_hear_metrics ht',
      metrics_tellings _ _ _ _ hrej, metrics_tellings _ _ _ _ hrej]

namespace Analysis

/-- What an analysis shows besides its store and its log. -/
def shown (a : Analysis) : Report × Diagnostics × Metrics :=
  (a.report, a.ledger.diagnostics, a.ledger.metrics)

/-- All modes count, each call once. -/
theorem count_metrics_sinks (mode : TelemetryMode) : mode.sinks.count .metrics = 1 := by
  cases mode <;> rfl

theorem shown_eq (stamp stamp' : Nat → Stamp) {config config' : Config} (c : Case)
    (hf : config.features = config'.features) :
    (run stamp config c).map shown = (run stamp' config' c).map shown := by
  have hshown : ∀ x : Except Violation (Report × Session),
      Except.map shown (x.mapError AnalysisError.violation >>= fun y => .ok ⟨y.1, y.2.ledger⟩) =
        (x.map fun y => (y.1, y.2.ledger.diagnostics, y.2.ledger.metrics)).mapError
          AnalysisError.violation := by
    intro x
    cases x <;> rfl
  rw [run, run, ← hf]
  cases c.resolve .builtins config.features with
  | error why => rfl
  | ok p =>
      show Except.map shown (p.strategy.mapError AnalysisError.violation >>= _) =
        Except.map shown (p.strategy.mapError AnalysisError.violation >>= _)
      cases p.strategy with
      | error why => rfl
      | ok op =>
          have hsame := Session.validate_shown {} ⟨config.telemetry.sinks, stamp⟩
            ⟨config'.telemetry.sinks, stamp'⟩ p.scope p.expression op (count_metrics_sinks _)
            (count_metrics_sinks _)
          exact (hshown _).trans ((congrArg _ hsame).trans (hshown _).symm)

theorem run_eq_ok {stamp : Nat → Stamp} {config : Config} {c : Case} {a : Analysis}
    (h : run stamp config c = .ok a) :
    ∃ (p : Problem) (v : Verdict) (q : Pass),
      c.resolve .builtins config.features = .ok p ∧
      a = ⟨.ofVerdict p.function p.expression v q.rejections,
        (Session.tellings stamp p.function.name p.expression 0 v q).foldl
          (Ledger.hear config.telemetry.sinks) {}⟩ := by
  obtain ⟨p, hp, hrest⟩ := Success.bind_eq_ok.mp h
  obtain ⟨op, hop, -⟩ := Success.bind_eq_ok.mp hrest
  rw [Success.mapError_eq_ok] at hp hop
  obtain ⟨v, q, hv, -⟩ := Session.validateNode_once {} p.scope p.expression op
  refine ⟨p, v, q, hp, ?_⟩
  rw [run_eq_hear stamp hp hop hv] at h
  exact (Except.ok.inj h).symm

theorem stored_eq {stamp : Nat → Stamp} {config : Config} {c : Case} {a : Analysis}
    (h : run stamp config c = .ok a) :
    a.ledger.entries.map Entry.content =
      if config.telemetry = .memory then
        a.report.rejections.map fun r => (r.status, r.node, r.kind, r.context, c.function)
      else [] := by
  obtain ⟨p, v, q, hp, rfl⟩ := run_eq_ok h
  obtain ⟨f, fs, hf, -, rfl⟩ := Case.resolve_eq_ok.mp hp
  have hname : f.name = c.function := (FunctionRegistry.mem_of_get hf).2
  show List.map Entry.content (Ledger.entries _) = _
  rw [Ledger.foldl_hear_entries, ← hname]
  cases config.telemetry with
  | memory =>
      have hcontents := Session.contents_tellings stamp f.name
        (c.problem config.features f fs).expression 0 v q
      rw [if_pos rfl]
      show List.map Entry.content ([] ++ List.flatMap (fun e => [e]) _) = _
      rw [List.nil_append, List.flatMap_singleton']
      exact hcontents
  | log | off =>
      rw [if_neg (by decide)]
      show List.map Entry.content ([] ++ List.flatMap (fun _ => []) _) = _
      simp

/-- **Being watched changes nothing.**  Under equal features a case fails with the same error or
shows the same, whatever the modes and the levels; its entries are stored in one mode only, and
are then its rejections.  The log of a validation that no sink writes to is its narrative, with a
warning iff the rejection is of an unknown entity; from a level above a trace on, only that
warning is left, and from a level above a warning on, nothing. -/
theorem shown_whoever_watches (c : Case) {config config' : Config}
    (hf : config.features = config'.features) (stamp stamp' : Nat → Stamp) :
    (run stamp config c).map shown = (run stamp' config' c).map shown ∧
    (∀ a, run stamp config c = .ok a →
      a.ledger.entries.map Entry.content =
        if config.telemetry = .memory then
          a.report.rejections.map fun r => (r.status, r.node, r.kind, r.context, c.function)
        else []) ∧
    ∀ (session : Session) (t : Tracker) (s : Scope) (root : Expr) (op : Option Strategy),
      s.function.name ≠ "" → (∀ severity, .log severity ∉ t.sinks) →
      ∃ (report : Report) (after : Session) (missing : Option String),
        session.validate t s root op = .ok (report, after) ∧
        after.ledger.log = session.ledger.log ++ report.narrative missing ∧
        report.rejections.length = (if report.delegable then 0 else 1) ∧
        (∀ i, missing = some i ↔ ∃ r ∈ report.rejections, r.IsOfEntity i) ∧
        (∀ i, missing = some i → ∃ x ∈ root.postorder, s.missingEntity? x = some i ∧
          ∃ r ∈ report.rejections, x.id = r.node ∧ x.kind = r.kind) ∧
        ∀ minimum, LogRecord.linesFrom minimum (report.narrative missing) =
          (if minimum = .trace then report.narrative missing
            else if minimum ≤ .warn then report.warnings missing else []).map LogRecord.line := by
  refine ⟨shown_eq stamp stamp' c hf, fun a h => stored_eq h, ?_⟩
  intro session t s root op hn ht
  obtain ⟨report, after, missing, hrun, hlog, hone, hwarned, hnode⟩ :=
    Session.validate_log session root op hn ht
  exact ⟨report, after, missing, hrun, hlog, hone, hwarned, hnode,
    report.linesFrom_narrative missing⟩

end Analysis

/-! ## An owner who is not known

A bare name that refers to an entity which the case does not describe, once with everything
watched and once with nothing. -/

namespace Sample

def owner : Case where
  function := "Filter"
  expression := .first "Owner"
    { rowScoped := true, name? := some (.entityExpansion ⟨"people", "Owner"⟩) }

def ownerName : Name := ⟨"Owner", by decide⟩

def ownerFacts : NodeFacts where
  rowScoped := true
  name? := some (.entityExpansion ownerName ⟨"people", ownerName, {}⟩)

def ownerScope : Scope := ⟨.filter, { facts := .ofList [(0, ownerFacts)] }, {}⟩

def ownerReason : Rejection :=
  ⟨.other, 0, .firstName, .suggestRemoteExecution "Filter",
    Context.entityNotFound .firstName true "people"⟩

theorem owner_whoever_watches :
    (∃ a b, Analysis.run silent.stamp { severity := .trace } owner = .ok a ∧
      Analysis.run silent.stamp { severity := .fatal, telemetry := .off } owner = .ok b ∧
      a.shown = b.shown ∧ a.report.rejections = [ownerReason] ∧
      a.ledger.entries.map Entry.content =
        [(.other, 0, .firstName, ownerReason.context, "Filter")] ∧
      b.ledger.entries.map Entry.content = []) ∧
    ∃ report after,
      ({} : Session).validate silent ownerScope (.first 0 ownerName) none = .ok (report, after) ∧
      report.rejections = [ownerReason] ∧ after.ledger.log = report.narrative (some "people") := by
  obtain ⟨hshown, hstored, hlog⟩ :=
    @Analysis.shown_whoever_watches owner { severity := .trace }
      { severity := .fatal, telemetry := .off } rfl silent.stamp silent.stamp
  obtain ⟨-, hunstored, -⟩ :=
    @Analysis.shown_whoever_watches owner { severity := .fatal, telemetry := .off }
      { severity := .trace } rfl silent.stamp silent.stamp
  constructor
  · obtain ⟨a, ha⟩ : ∃ a, Analysis.run silent.stamp { severity := .trace } owner = .ok a := ⟨_, rfl⟩
    obtain ⟨b, hb⟩ : ∃ b, Analysis.run silent.stamp { severity := .fatal, telemetry := .off } owner =
      .ok b := ⟨_, rfl⟩
    have hrun : (Analysis.run silent.stamp { severity := .trace } owner).map
        (·.report.rejections) = .ok [ownerReason] := rfl
    rw [ha] at hrun
    have hrejections : a.report.rejections = [ownerReason] := Except.ok.inj hrun
    have hentries := hstored a ha
    rw [hrejections] at hentries
    rw [ha, hb] at hshown
    exact ⟨a, b, ha, hb, Except.ok.inj hshown, hrejections, hentries, hunstored b hb⟩
  · obtain ⟨report, after, missing, hval, hlog, -, hwarned, -⟩ :=
      hlog {} silent ownerScope (.first 0 ownerName) none (by decide) (by simp [silent])
    have hrun : (({} : Session).validate silent ownerScope (.first 0 ownerName) none).map
        (·.1.rejections) = .ok [ownerReason] := rfl
    rw [hval] at hrun
    have hrejections : report.rejections = [ownerReason] := Except.ok.inj hrun
    have hmissing : missing = some "people" := by
      rw [hwarned, hrejections]
      exact ⟨ownerReason, List.mem_singleton_self _, rfl⟩
    rw [hmissing] at hlog
    exact ⟨report, after, hval, hrejections, hlog⟩

end Sample

end Delegability
