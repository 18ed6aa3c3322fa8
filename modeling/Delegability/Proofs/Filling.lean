/-
# `Delegability.Proofs.Filling` — filling undoes escaping

A template is put together of segments, and each of them has a written form:

    text t    is written    t, its braces doubled       and stands for    t
    hole i    is written    { i }                       and stands for    the argument i

Braces of neighbours can touch, as in `{{{0}}}`: a text that ends in a brace, a hole, a text that
starts with one.  Filling does not confuse them, because it is outside of everything
(`State.plain`) at both ends of every written segment, and what it writes for a segment does not
depend on what follows.

The other law is about templates that are not made in this way.  Where no brace is doubled and no
argument fits any hole, what filling has written and what it still holds back are together what it
has read, after every character; so the template comes out as it went in.
-/
import Mathlib.Data.List.Infix
import Delegability.Hint

namespace Delegability

namespace Template

variable {args : List String}

/-! ## Segments -/

/-- A part of a template that is filled with `n` arguments. -/
inductive Segment (n : Nat) where
  | text (t : String)
  | hole (i : Fin n)

namespace Segment

/-- The segment in the template. -/
def written {n : Nat} : Segment n → String
  | .text t => escape t
  | .hole i => r"{" ++ i.val.repr ++ r"}"

/-- What the segment stands for. -/
def meaning (args : List String) : Segment args.length → String
  | .text t => t
  | .hole i => args.get i

theorem written_text {n : Nat} (t : String) : (text t : Segment n).written = escape t := rfl

theorem meaning_text (t : String) : (text t).meaning args = t := rfl

end Segment

theorem fillFrom_escapeChar (c : Char) (rest : List Char) :
    fillFrom args .plain (escapeChar c ++ rest) = c :: fillFrom args .plain rest := by
  unfold escapeChar
  split
  next h =>
    rcases h with rfl | rfl
    · rfl
    · rfl
  next h =>
    obtain ⟨hopen, hclose⟩ := not_or.mp h
    have hstep : step args .plain c = ([c], .plain) := by
      simp [step, enter, hopen, hclose]
    rw [List.singleton_append, fillFrom, hstep]
    rfl

theorem fillFrom_escape (t : List Char) (rest : List Char) :
    fillFrom args .plain (t.flatMap escapeChar ++ rest) = t ++ fillFrom args .plain rest := by
  induction t with
  | nil => rfl
  | cons c t ih =>
      rw [List.flatMap_cons, List.append_assoc, fillFrom_escapeChar, ih]
      rfl

/-! ## Holes -/

theorem index?_eq {ds : List Char} (h : ds ≠ []) : index? ds = some (Nat.ofDigitChars 10 ds 0) := by
  have hvalue : ds.foldl (fun n d => n * 10 + (d.toNat - '0'.toNat)) 0 =
      Nat.ofDigitChars 10 ds 0 := by
    simp only [Nat.ofDigitChars_eq_foldl, Nat.mul_comm 10]
  cases ds with
  | nil => exact absurd rfl h
  | cons d ds => exact congrArg some hvalue

theorem argument?_eq_some {ds arg : List Char} : argument? args ds = some arg ↔
    ds ≠ [] ∧ ∃ s, args[Nat.ofDigitChars 10 ds 0]? = some s ∧ s.toList = arg := by
  unfold argument?
  by_cases h : ds = []
  · simp [h, index?]
  · simp [index?_eq h, h]

/-- Digits after an opening brace are held back. -/
theorem fillFrom_digits {ds es : List Char} (hes : ∀ d ∈ es, d.isDigit = true) (rest : List Char) :
    fillFrom args (.opened ds) (es ++ rest) = fillFrom args (.opened (ds ++ es)) rest := by
  induction es generalizing ds with
  | nil => rw [List.nil_append, List.append_nil]
  | cons d es ih =>
      obtain ⟨hd, hes⟩ := List.forall_mem_cons.mp hes
      have hbrace : d ≠ '{' := by
        rintro rfl
        cases hd
      have hstep : step args (.opened ds) d = ([], .opened (ds ++ [d])) := by
        simp [step, hbrace, hd]
      rw [List.cons_append, fillFrom, hstep, List.nil_append, ih hes, List.append_assoc,
        List.singleton_append]

theorem fillFrom_hole {ds arg : List Char} (hds : ∀ d ∈ ds, d.isDigit = true)
    (harg : argument? args ds = some arg) (rest : List Char) :
    fillFrom args .plain ('{' :: (ds ++ '}' :: rest)) = arg ++ fillFrom args .plain rest := by
  have hopen : step args .plain '{' = ([], .opened []) := rfl
  have hclose : step args (.opened ds) '}' = (arg, .plain) := by
    have hdigit : ('}').isDigit = false := rfl
    simp [step, harg, hdigit]
  rw [fillFrom, hopen, List.nil_append, fillFrom_digits hds, List.nil_append, fillFrom, hclose]

/-- A written segment becomes what it stands for, whatever follows it. -/
theorem fillFrom_written (s : Segment args.length) (rest : List Char) :
    fillFrom args .plain (s.written.toList ++ rest) =
      (s.meaning args).toList ++ fillFrom args .plain rest := by
  cases s with
  | text t =>
      rw [Segment.written, escape, String.toList_ofList]
      exact fillFrom_escape t.toList rest
  | hole i =>
      have hds : ∀ d ∈ Nat.toDigits 10 i.val, d.isDigit = true := fun d hd =>
        Nat.isDigit_of_mem_toDigits (by decide) (by decide) hd
      have harg : argument? args (Nat.toDigits 10 i.val) = some (args.get i).toList := by
        refine argument?_eq_some.mpr ⟨Nat.toDigits_ne_nil, args.get i, ?_, rfl⟩
        rw [Nat.ofDigitChars_ten_toDigits]
        exact List.getElem?_eq_getElem i.isLt
      have hwritten : (Segment.hole i).written.toList ++ rest =
          '{' :: (Nat.toDigits 10 i.val ++ '}' :: rest) := by
        simp [Segment.written, Nat.toList_repr]
      rw [hwritten]
      exact fillFrom_hole hds harg rest

theorem fill_written (segments : List (Segment args.length)) :
    fill (String.join (segments.map Segment.written)) args =
      String.join (segments.map (Segment.meaning args)) := by
  have hlist : ∀ segments : List (Segment args.length),
      fillFrom args .plain (segments.flatMap fun s => s.written.toList) =
        segments.flatMap fun s => (s.meaning args).toList := by
    intro segments
    induction segments with
    | nil => rfl
    | cons s segments ih =>
        rw [List.flatMap_cons, List.flatMap_cons, fillFrom_written, ih]
  rw [← String.toList_inj, fill, String.toList_ofList, String.toList_join, String.toList_join,
    List.flatMap_map, List.flatMap_map, hlist]

/-! ## Templates that stay -/

/-- No brace is doubled, and the number of every hole is past the `n` arguments. -/
structure Inert (n : Nat) (cs : List Char) : Prop where
  opening : ¬ ['{', '{'] <:+: cs
  closing : ¬ ['}', '}'] <:+: cs
  holes : ∀ ds, ds ≠ [] → (∀ d ∈ ds, d.isDigit = true) → '{' :: (ds ++ ['}']) <:+: cs →
    n ≤ Nat.ofDigitChars 10 ds 0

theorem Inert.of_infix {n : Nat} {cs cs' : List Char} (h : Inert n cs) (hsub : cs' <:+: cs) :
    Inert n cs' where
  opening := fun hin => h.opening (hin.trans hsub)
  closing := fun hin => h.closing (hin.trans hsub)
  holes := fun ds hne hds hin => h.holes ds hne hds (hin.trans hsub)

/-- What is held back after an opening brace is digits. -/
def State.Numeric : State → Prop
  | .opened ds => ∀ d ∈ ds, d.isDigit = true
  | .plain | .closed => True

theorem enter_pending (c : Char) : (enter c).1 ++ (enter c).2.pending = [c] := by
  unfold enter
  split
  next h => exact h ▸ rfl
  next =>
    split
    next h => exact h ▸ rfl
    next => rfl

theorem enter_numeric (c : Char) : (enter c).2.Numeric := by
  unfold enter
  split
  next => exact fun d hd => absurd hd List.not_mem_nil
  next => split <;> trivial

/-- After an opening brace: it is doubled, a digit follows, a hole is filled, or none of these and
all that was held back is written. -/
theorem step_opened_cases (ds : List Char) (c : Char) :
    (ds = [] ∧ c = '{') ∨
    (c.isDigit = true ∧ step args (.opened ds) c = ([], .opened (ds ++ [c]))) ∨
    (c = '}' ∧ ∃ arg, argument? args ds = some arg) ∨
    step args (.opened ds) c = ('{' :: ds ++ (enter c).1, (enter c).2) := by
  by_cases hdouble : ds = [] ∧ c = '{'
  · exact .inl hdouble
  have hbrace : (ds.isEmpty && decide (c = '{')) = false := by simpa using hdouble
  by_cases hdigit : c.isDigit = true
  · exact .inr (.inl ⟨hdigit, by simp [step, hbrace, hdigit]⟩)
  cases harg : argument? args ds with
  | none => exact .inr (.inr (.inr (by simp [step, hbrace, hdigit, harg])))
  | some arg =>
      by_cases hclose : c = '}'
      · exact .inr (.inr (.inl ⟨hclose, arg, rfl⟩))
      · exact .inr (.inr (.inr (by simp [step, hbrace, hdigit, harg, hclose])))

/-- One character of a template that stays: written and held back are together what was read. -/
theorem step_pending {s : State} {c : Char} {rest : List Char} (hs : s.Numeric)
    (h : Inert args.length (s.pending ++ c :: rest)) :
    (step args s c).1 ++ (step args s c).2.pending = s.pending ++ [c] ∧
      (step args s c).2.Numeric := by
  cases s with
  | plain => exact ⟨enter_pending c, enter_numeric c⟩
  | closed =>
      by_cases hc : c = '}'
      · subst hc
        exact absurd (List.infix_append [] ['}', '}'] rest) h.closing
      · simp only [step, hc, if_false]
        exact ⟨congrArg _ (enter_pending c), enter_numeric c⟩
  | opened ds =>
      rcases @step_opened_cases args ds c with
        ⟨rfl, rfl⟩ | ⟨hdigit, hstep⟩ | ⟨rfl, arg, harg⟩ | hstep
      · exact absurd (List.infix_append [] ['{', '{'] rest) h.opening
      · rw [hstep]
        refine ⟨rfl, fun d hd => ?_⟩
        rcases List.mem_append.mp hd with hd | hd
        · exact hs d hd
        · exact List.mem_singleton.mp hd ▸ hdigit
      · -- the number of the hole would be that of an argument
        obtain ⟨hne, text, hget, -⟩ := argument?_eq_some.mp harg
        obtain ⟨hlt, -⟩ := List.getElem?_eq_some_iff.mp hget
        have hin : '{' :: (ds ++ ['}']) <:+: State.pending (.opened ds) ++ '}' :: rest :=
          ⟨[], rest, by simp [State.pending]⟩
        exact absurd (h.holes ds hne hs hin) (Nat.not_le.mpr hlt)
      · rw [hstep]
        refine ⟨?_, enter_numeric c⟩
        rw [List.append_assoc, enter_pending]
        rfl

theorem fillFrom_of_inert {s : State} {cs : List Char} (hs : s.Numeric)
    (h : Inert args.length (s.pending ++ cs)) : fillFrom args s cs = s.pending ++ cs := by
  induction cs generalizing s with
  | nil => rw [fillFrom, List.append_nil]
  | cons c cs ih =>
      obtain ⟨hstep, hnumeric⟩ := step_pending hs h
      have hread : (step args s c).1 ++ ((step args s c).2.pending ++ cs) =
          s.pending ++ c :: cs := by
        rw [← List.append_assoc, hstep, List.append_assoc, List.singleton_append]
      have hrest : Inert args.length ((step args s c).2.pending ++ cs) :=
        h.of_infix (hread ▸ List.infix_append_right ..)
      rw [fillFrom, ih hnumeric hrest, hread]

theorem fill_of_inert {template : String} (h : Inert args.length template.toList) :
    fill template args = template := by
  have hsame : fillFrom args .plain template.toList = template.toList :=
    fillFrom_of_inert trivial h
  rw [fill, hsame, String.ofList_toList]

/-! ## Messages

The name of a column is escaped before it goes into its message, so the message is a template
again: that of the three texts, without holes. -/

theorem escape_of_no_brace {t : String} (h : ∀ c ∈ t.toList, c ≠ '{' ∧ c ≠ '}') :
    escape t = t := by
  have hchar : ∀ c ∈ t.toList, escapeChar c = [c] := by
    intro c hc
    exact if_neg (not_or.mpr (h c hc))
  rw [escape, List.flatMap_congr hchar, List.flatMap_singleton', String.ofList_toList]

/-- A segment between two texts that need no escaping. -/
theorem fill_between {before after : String}
    (h : ∀ c ∈ before.toList ++ after.toList, c ≠ '{' ∧ c ≠ '}') (s : Segment args.length) :
    fill (before ++ s.written ++ after) args = before ++ s.meaning args ++ after := by
  obtain ⟨hbefore, hafter⟩ := List.forall_mem_append.mp h
  have hparts := fill_written [.text before, s, .text after]
  simp only [List.map_cons, List.map_nil, Segment.written_text, Segment.meaning_text,
    escape_of_no_brace hbefore, escape_of_no_brace hafter] at hparts
  simpa [String.append_assoc] using hparts

theorem fill_fill_escape {before after : String}
    (h : ∀ c ∈ before.toList ++ after.toList, c ≠ '{' ∧ c ≠ '}') (t : String)
    (args : List String) :
    fill (fill (before ++ "{0}" ++ after) [escape t]) args = before ++ t ++ after := by
  have hhole : (Segment.hole (0 : Fin [escape t].length)).written = "{0}" := by
    show r"{" ++ Nat.repr 0 ++ r"}" = "{0}"
    decide
  have hfirst : fill (before ++ "{0}" ++ after) [escape t] = before ++ escape t ++ after := by
    rw [← hhole]
    exact fill_between h (.hole 0)
  have hagain : fill (before ++ escape t ++ after) args = before ++ t ++ after :=
    fill_between h (.text t)
  rw [hfirst, hagain]

end Template

theorem Hint.message_notSupportedByColumn {template : String}
    (h : HintKey.notSupportedByColumn.template? = some template) (column : String) :
    (Hint.notSupportedByColumn column).message =
      Template.fill template [Template.escape column] := by
  unfold Hint.notSupportedByColumn Hint.ofKey
  rw [h]

/-- The message about a column has one hole and no other braces. -/
theorem columnTemplate_parts : ∃ before after : String,
    HintKey.notSupportedByColumn.template? = some (before ++ "{0}" ++ after) ∧
      ∀ c ∈ before.toList ++ after.toList, c ≠ '{' ∧ c ≠ '}' := by
  refine ⟨"Delegation warning. The highlighted part of this formula might not work correctly " ++
    "with column \"", "\" on large data sets.", ?_, ?_⟩
  · simp [HintKey.template?, HintKey.templates, HintKey.notSupportedByColumn,
      HintKey.suggestRemoteExecution, List.lookup_cons]
  · suffices ∀ cs : List Char, (cs.all fun c => c != '{' && c != '}') = true →
        ∀ c ∈ cs, c ≠ '{' ∧ c ≠ '}' from this _ (by decide +kernel)
    intro cs h c hc
    simpa using List.all_eq_true.mp h c hc

/-! ## Both laws -/

namespace Template

/-- **Filling.**  Segments that are written one after the other are filled to what they stand for,
one after the other: escaped texts become the texts, holes become the arguments as they are.  So
the message about a column, filled once more with whatever arguments, has the name of the column
in the place of the hole.  And a template stays as it is if no brace in it is doubled and no
argument has the number of a hole. -/
theorem filling_undoes_escaping :
    (∀ (args : List String) (segments : List (Segment args.length)),
      fill (String.join (segments.map Segment.written)) args =
        String.join (segments.map (Segment.meaning args))) ∧
    (∃ before after : String,
      HintKey.notSupportedByColumn.template? = some (before ++ "{0}" ++ after) ∧
      (∀ c ∈ before.toList ++ after.toList, c ≠ '{' ∧ c ≠ '}') ∧
      ∀ column args, fill (Hint.notSupportedByColumn column).message args =
        before ++ column ++ after) ∧
    ∀ template args, Inert args.length template.toList → fill template args = template := by
  refine ⟨fun args => fill_written, ?_, fun template args => fill_of_inert⟩
  obtain ⟨before, after, htemplate, hbraces⟩ := columnTemplate_parts
  refine ⟨before, after, htemplate, hbraces, fun column args => ?_⟩
  rw [Hint.message_notSupportedByColumn htemplate]
  exact fill_fill_escape hbraces column args

end Template

/-! ## Braces that touch

Between two texts that are braces stands a hole, and its argument looks like a hole too.  The other
template has a hole whose number is past its one argument. -/

namespace Sample

def bracedSegments : List (Template.Segment ["{1}", "x"].length) :=
  [.text r"{", .hole 0, .text r"}"]

theorem pastHole_inert : Template.Inert ["x"].length "{3}".toList where
  opening := by decide
  closing := by decide
  holes := by
    intro ds hne _ hin
    have hlength : ds.length = 1 := by
      have hle : ('{' :: (ds ++ ['}'])).length ≤ 3 := hin.length_le
      rw [List.length_cons, List.length_append, List.length_singleton] at hle
      have hpos := List.length_pos_iff.mpr hne
      omega
    obtain ⟨d, rfl⟩ := List.length_eq_one_iff.mp hlength
    cases hin.eq_of_length rfl
    decide

theorem braces_touch :
    String.join (bracedSegments.map Template.Segment.written) = "{{{0}}}" ∧
      Template.fill "{{{0}}}" ["{1}", "x"] = "{{1}}" ∧
      Template.fill "{3}" ["x"] = "{3}" := by
  obtain ⟨hsegments, -, hinert⟩ := Template.filling_undoes_escaping
  exact ⟨rfl, hsegments _ bracedSegments, hinert _ _ pastHole_inert⟩

end Sample

end Delegability
