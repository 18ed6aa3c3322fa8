/-
# `Delegability.Proofs.LogLines` — a log line is read back

A record of the log is written as one JSON object on one line.  The reader of documents takes the
line character by character.  Inside quotes each character of a text has become one, two or six
characters, and after these the reader holds the one code point more that it would hold after the
character itself:

    written      x       \n      \"      \u0085
    held         0x78    0x0A    0x22    0x85

That holds of every way of escaping that the reader can undo (`EscapeStyle.Legible`), and log lines
are escaped in such a way.  So no text can end its own quotes, and an object of texts is read
member by member.  No character of a line is a line feed, since those are escaped too.

The fields are sorted by their keys.  Where no two keys are equal there is one sorted list, so the
line does not depend on the order of the fields.
-/
import Mathlib.Data.List.Nodup
import Delegability.Json.Reader
import Delegability.Log

namespace Delegability

/-! ## Four hexadecimal digits -/

namespace Text

theorem hexValue?_digitChar : ∀ d < 16, hexValue? (Nat.digitChar d) = some d := by decide

theorem hexDigits_of_lt {n : Nat} (h : n < 16) : hexDigits n = [Nat.digitChar n] :=
  Nat.toDigits_of_lt_base h

theorem hexDigits_of_le {n : Nat} (h : 16 ≤ n) :
    hexDigits n = hexDigits (n / 16) ++ [Nat.digitChar (n % 16)] :=
  Nat.toDigits_of_base_le (by decide) h

/-- The four places, the first from the left. -/
theorem hex4_eq {n : Nat} (h : n < 0x10000) : hex4 n = [Nat.digitChar (n / 0x1000),
    Nat.digitChar (n / 0x100 % 16), Nat.digitChar (n / 0x10 % 16), Nat.digitChar (n % 16)] := by
  have hzero : Nat.digitChar 0 = '0' := rfl
  have hsecond : n / 16 / 16 = n / 0x100 := by omega
  have hthird : n / 0x100 / 16 = n / 0x1000 := by omega
  unfold hex4
  -- by the number of digits before zeros are put in front
  by_cases hone : n < 0x10
  · have hsmall : n / 0x10 = 0 ∧ n / 0x100 = 0 ∧ n / 0x1000 = 0 ∧ n % 16 = n := by omega
    simp [hexDigits_of_lt hone, hsmall, List.replicate, hzero]
  rw [hexDigits_of_le (Nat.not_lt.mp hone)]
  by_cases htwo : n / 0x10 < 0x10
  · have hsmall : n / 0x100 = 0 ∧ n / 0x1000 = 0 ∧ n / 0x10 % 16 = n / 0x10 := by omega
    simp [hexDigits_of_lt htwo, hsmall, List.replicate, hzero]
  rw [hexDigits_of_le (Nat.not_lt.mp htwo), hsecond]
  by_cases hthree : n / 0x100 < 0x10
  · have hsmall : n / 0x1000 = 0 ∧ n / 0x100 % 16 = n / 0x100 := by omega
    simp [hexDigits_of_lt hthree, hsmall, hzero]
  have hfour : n / 0x1000 < 0x10 := by omega
  rw [hexDigits_of_le (Nat.not_lt.mp hthree), hthird, hexDigits_of_lt hfour]
  rfl

theorem exists_digit_of_mem_hex4 {n : Nat} (h : n < 0x10000) {c : Char} (hc : c ∈ hex4 n) :
    ∃ d < 16, c = Nat.digitChar d := by
  rw [hex4_eq h] at hc
  simp only [List.mem_cons, List.not_mem_nil, or_false] at hc
  rcases hc with rfl | rfl | rfl | rfl
  · exact ⟨n / 0x1000, by omega, rfl⟩
  · exact ⟨n / 0x100 % 16, by omega, rfl⟩
  · exact ⟨n / 0x10 % 16, by omega, rfl⟩
  · exact ⟨n % 16, by omega, rfl⟩

/-! ## Legible styles -/

theorem EscapeStyle.toList_quote (st : EscapeStyle) (s : String) :
    (st.quote s).toList = '"' :: (st.escape s.toList ++ ['"']) := String.toList_ofList

/-- A style that the reader can undo. -/
structure EscapeStyle.Legible (st : EscapeStyle) : Prop where
  short : ∀ c l, st.short.lookup c = some l → Json.Reader.shortEscape? l = some c
  numbered : ∀ c, st.numbered c = true → c.toNat < 0x10000
  raw : ∀ c, st.short.lookup c = none → st.numbered c = false →
    c ≠ '"' ∧ c ≠ '\\' ∧ 0x20 ≤ c.toNat

theorem legible_logStyle : logStyle.Legible where
  short := by
    intro c l h
    obtain ⟨before, after, hsplit, -⟩ := List.lookup_eq_some_iff.mp h
    have hmem : (c, l) ∈ logStyle.short := hsplit ▸ List.mem_append_right before List.mem_cons_self
    have hall : ∀ p ∈ logStyle.short, Json.Reader.shortEscape? p.2 = some p.1 := by decide
    exact hall (c, l) hmem
  numbered := by
    intro c h
    simp only [logStyle, Bool.or_eq_true, Bool.and_eq_true, decide_eq_true_eq] at h
    omega
  raw := by
    intro c hshort hnumbered
    refine ⟨?_, ?_, ?_⟩
    · rintro rfl
      cases hshort
    · rintro rfl
      cases hshort
    · simp only [logStyle, Bool.or_eq_false_iff, decide_eq_false_iff_not] at hnumbered
      omega

/-- What the reader can undo is written without line feeds. -/
theorem EscapeStyle.Legible.newline_not_mem {st : EscapeStyle} (hst : st.Legible) (c : Char) :
    '\n' ∉ st.escapeChar c := by
  have hdigit : ∀ d < 16, '\n' ≠ Nat.digitChar d := by decide
  intro hmem
  unfold EscapeStyle.escapeChar at hmem
  split at hmem
  next l hshort =>
    rcases List.mem_pair.mp hmem with h | h
    · cases h
    · cases h ▸ hst.short c l hshort
  next hshort =>
    split at hmem
    next hnumbered =>
      rcases List.mem_cons.mp hmem with h | hmem
      · cases h
      rcases List.mem_cons.mp hmem with h | hmem
      · cases h
      obtain ⟨d, hd, h⟩ := exists_digit_of_mem_hex4 (hst.numbered c hnumbered) hmem
      exact hdigit d hd h
    next hnumbered =>
      obtain ⟨-, -, hlow⟩ := hst.raw c hshort (Bool.not_eq_true _ ▸ hnumbered)
      rw [← List.mem_singleton.mp hmem] at hlow
      exact absurd hlow (by decide)

theorem EscapeStyle.Legible.newline_not_mem_quote {st : EscapeStyle} (hst : st.Legible)
    (s : String) : '\n' ∉ (st.quote s).toList := by
  have hescape : '\n' ∉ st.escape s.toList := by
    intro hmem
    obtain ⟨c, -, hc⟩ := List.mem_flatMap.mp hmem
    exact hst.newline_not_mem c hc
  rw [st.toList_quote]
  simp [hescape]

end Text

/-! ## Texts -/

namespace Json

/-- A character is neither half of a pair. -/
theorem not_surrogate (c : Char) : isLead c.toNat = false ∧ isTrail c.toNat = false := by
  have hvalid : c.toNat < 0xD800 ∨ 0xDFFF < c.toNat ∧ c.toNat < 0x110000 := c.valid
  simp only [isLead, isTrail, Bool.and_eq_false_iff, decide_eq_false_iff_not]
  omega

theorem joinUnits_toNat (cs : List Char) : joinUnits (cs.map Char.toNat) = some cs := by
  induction cs with
  | nil => rfl
  | cons c cs ih =>
      obtain ⟨hlead, htrail⟩ := not_surrogate c
      cases cs with
      | nil => simp [joinUnits, hlead, htrail, Char.ofNat_toNat]
      | cons d cs =>
          rw [List.map_cons, List.map_cons, joinUnits, ← List.map_cons, ih]
          simp [hlead, htrail, Char.ofNat_toNat]

namespace Reader

variable {st : Text.EscapeStyle} {units : List Nat} {isKey : Bool} {stack : List Frame}

theorem run_cons (r : Reader) (c : Char) (cs : List Char) : r.run (c :: cs) = (r.step c).run cs :=
  rfl

theorem step_hex {value left d : Nat} (hd : d < 16) :
    (going (.text units (.hex value left) isKey) stack).step (Nat.digitChar d) =
      if left ≤ 1 then .going (.text ((value * 16 + d) :: units) .none isKey) stack
      else .going (.text units (.hex (value * 16 + d) (left - 1)) isKey) stack := by
  simp only [step, stepText, Text.hexValue?_digitChar d hd]

/-- A code unit by its number. -/
theorem run_hex4 {n : Nat} (h : n < 0x10000) :
    (going (.text units (.hex 0 4) isKey) stack).run (Text.hex4 n) =
      .going (.text (n :: units) .none isKey) stack := by
  have hvalue : (((0 * 16 + n / 0x1000) * 16 + n / 0x100 % 16) * 16 + n / 0x10 % 16) * 16 +
      n % 16 = n := by omega
  have hfirst : n / 0x1000 < 16 := by omega
  have hrest : ∀ m, m % 16 < 16 := fun m => Nat.mod_lt m (by decide)
  rw [Text.hex4_eq h, run_cons, step_hex hfirst, if_neg (by decide), run_cons, step_hex (hrest _),
    if_neg (by decide), run_cons, step_hex (hrest _), if_neg (by decide), run_cons,
    step_hex (hrest _), if_pos (by decide), hvalue]
  rfl

/-- One character of a text, however it is written. -/
theorem run_escapeChar (hst : st.Legible) (c : Char) :
    (going (.text units .none isKey) stack).run (st.escapeChar c) =
      .going (.text (c.toNat :: units) .none isKey) stack := by
  unfold Text.EscapeStyle.escapeChar
  split
  next l hshort =>
    have hl := hst.short c l hshort
    have hu : l ≠ 'u' := by
      rintro rfl
      cases hl
    simp [run, step, stepText, hl, hu]
  next hshort =>
    split
    next hnumbered =>
      have hmark : (going (.text units .none isKey) stack).run ('\\' :: 'u' :: Text.hex4 c.toNat) =
          (going (.text units (.hex 0 4) isKey) stack).run (Text.hex4 c.toNat) := rfl
      rw [hmark, run_hex4 (hst.numbered c hnumbered)]
    next hnumbered =>
      rw [Bool.not_eq_true] at hnumbered
      obtain ⟨hquote, hback, hlow⟩ := hst.raw c hshort hnumbered
      simp [run, step, stepText, hquote, hback, Nat.not_lt.mpr hlow]

theorem run_escape (hst : st.Legible) (cs : List Char) :
    (going (.text units .none isKey) stack).run (st.escape cs) =
      .going (.text ((cs.map Char.toNat).reverse ++ units) .none isKey) stack := by
  induction cs generalizing units with
  | nil => rfl
  | cons c cs ih =>
      rw [Text.EscapeStyle.escape, List.flatMap_cons, run_append, run_escapeChar hst,
        ← Text.EscapeStyle.escape, ih]
      simp

/-- A text in quotes, read from wherever a quote starts one. -/
theorem run_quote (hst : st.Legible) {r : Reader}
    (h : r.step '"' = .going (.text [] .none isKey) stack) (s : String) :
    r.run (st.quote s).toList = endText (s.toList.map Char.toNat).reverse isKey stack := by
  rw [st.toList_quote, run_cons, h, run_append, run_escape hst, List.append_nil]
  rfl

theorem run_quote_key (hst : st.Legible) (s : String) {closable : Bool}
    {members : List (Option String × Document)} {key : Option String} :
    (going (.key closable) (.obj members key :: stack)).run (st.quote s).toList =
      .going .colon (.obj members (some s) :: stack) := by
  rw [run_quote hst rfl]
  simp only [endText, List.reverse_reverse, joinUnits_toNat, Option.map_some, String.ofList_toList]

theorem run_quote_value (hst : st.Legible) (s : String) {closable : Bool} :
    (going (.value closable) stack).run (st.quote s).toList = give (.str s) stack := by
  rw [run_quote hst rfl]
  unfold endText
  rw [List.reverse_reverse, joinUnits_toNat, Option.map_some, String.ofList_toList]

end Reader

end Json

/-! ## Lines -/

namespace LogRecord

open Json

/-- A pair as it is read. -/
def member (p : String × String) : Option String × Document := (some p.1, .str p.2)

theorem run_pair (p : String × String) {closable : Bool}
    {members : List (Option String × Document)} {key : Option String} {stack : List Frame} :
    (Reader.going (.key closable) (.obj members key :: stack)).run (pair p).toList =
      .going .after (.obj (member p :: members) none :: stack) := by
  have hcolon : (Reader.going .colon (.obj members (some p.1) :: stack)).run [':'] =
      .going (.value false) (.obj members (some p.1) :: stack) := rfl
  have hparts : (pair p).toList =
      (Text.logStyle.quote p.1).toList ++ [':'] ++ (Text.logStyle.quote p.2).toList := by
    simp [pair]
  rw [hparts, Reader.run_append, Reader.run_append, Reader.run_quote_key Text.legible_logStyle,
    hcolon, Reader.run_quote_value Text.legible_logStyle]
  rfl

/-- Pairs with commas between them are read one by one. -/
theorem run_pairs {ps : List (String × String)} (hne : ps ≠ []) {closable : Bool}
    {members : List (Option String × Document)} {key : Option String} {stack : List Frame} :
    (Reader.going (.key closable) (.obj members key :: stack)).run
        (",".intercalate (ps.map pair)).toList =
      .going .after (.obj ((ps.map member).reverse ++ members) none :: stack) := by
  induction ps generalizing closable members key with
  | nil => exact absurd rfl hne
  | cons p ps ih =>
      cases ps with
      | nil =>
          rw [List.map_singleton, String.intercalate_singleton, run_pair]
          rfl
      | cons q qs =>
          have hcomma : ∀ ms, (Reader.going .after (.obj ms none :: stack)).run ",".toList =
              .going (.key false) (.obj ms none :: stack) := fun ms => rfl
          have hparts : (",".intercalate ((p :: q :: qs).map pair)).toList =
              (pair p).toList ++ ",".toList ++ (",".intercalate ((q :: qs).map pair)).toList := by
            simp only [List.map_cons, String.intercalate_cons_cons, String.toList_append]
          rw [hparts, Reader.run_append, Reader.run_append, run_pair, hcomma,
            ih (List.cons_ne_nil q qs)]
          simp

/-- The line is one object, its members in the order of the line. -/
theorem read_line (r : LogRecord) : Json.read (unlines [r.line]) = (.obj (r.pairs.map member), true) := by
  have hparts : (unlines [r.line]).toList =
      ['{'] ++ (",".intercalate (r.pairs.map pair)).toList ++ ['}', '\n'] := by
    simp [unlines, line]
  have hopen : Reader.start.run ['{'] = .going (.key true) [.obj [] none] := rfl
  have hclose : ∀ ms, (Reader.going .after [.obj ms none]).run ['}', '\n'] =
      .done (.obj ms.reverse) := fun ms => rfl
  have hne : r.pairs ≠ [] := List.cons_ne_nil _ _
  unfold Json.read
  rw [hparts, Reader.run_append, Reader.run_append, hopen, run_pairs hne, hclose, List.append_nil,
    List.reverse_reverse]
  rfl

theorem valueMembers?_map_member (ps : List (String × String)) :
    Document.valueMembers? (ps.map member) = some (ps.map fun p => (p.1, .str p.2)) := by
  induction ps with
  | nil => rfl
  | cons p ps ih => simp [member, Document.valueMembers?, Document.value?, ih]

theorem parse?_line (r : LogRecord) :
    parse? (unlines [r.line]) = some (.object (r.pairs.map fun p => (p.1, .str p.2))) := by
  unfold parse?
  rw [read_line]
  show (Document.valueMembers? (r.pairs.map member)).map Value.object = _
  rw [valueMembers?_map_member, Option.map_some]

/-! ## One line -/

theorem newline_not_mem_pair (p : String × String) : '\n' ∉ (pair p).toList := by
  have hkey := Text.legible_logStyle.newline_not_mem_quote p.1
  have hvalue := Text.legible_logStyle.newline_not_mem_quote p.2
  simp [pair, hkey, hvalue]

theorem newline_not_mem_pairs (ps : List (String × String)) :
    '\n' ∉ (",".intercalate (ps.map pair)).toList := by
  induction ps with
  | nil => exact List.not_mem_nil
  | cons p ps ih =>
      cases ps with
      | nil =>
          rw [List.map_singleton, String.intercalate_singleton]
          exact newline_not_mem_pair p
      | cons q qs =>
          simp only [List.map_cons, String.intercalate_cons_cons, String.toList_append,
            List.mem_append, not_or]
          exact ⟨⟨newline_not_mem_pair p, by decide⟩, ih⟩

theorem newline_not_mem_line (r : LogRecord) : '\n' ∉ r.line.toList := by
  have hpairs := newline_not_mem_pairs r.pairs
  simp [line, -String.toList_intercalate, hpairs]

/-! ## The order of the fields -/

variable {r r' : LogRecord}

theorem sortedFields_perm (r : LogRecord) : r.sortedFields.Perm r.fields :=
  List.mergeSort_perm r.fields _

theorem sortedFields_pairwise (r : LogRecord) :
    r.sortedFields.Pairwise fun a b => a.1 ≤ b.1 := by
  have hsorted : r.sortedFields.Pairwise fun a b => decide (a.1 ≤ b.1) = true := by
    refine List.pairwise_mergeSort (fun a b c hab hbc => ?_) (fun a b => ?_) r.fields
    · rw [decide_eq_true_eq] at hab hbc ⊢
      exact String.le_trans hab hbc
    · rw [Bool.or_eq_true, decide_eq_true_eq, decide_eq_true_eq]
      exact String.le_total a.1 b.1
  exact hsorted.imp of_decide_eq_true

/-- No two keys are equal, and no key is one of those in front. -/
structure Distinct (r : LogRecord) : Prop where
  nodup : (r.fields.map Prod.fst).Nodup
  free : ∀ p ∈ r.fields, p.1 ≠ "event" ∧ p.1 ≠ "severity"

theorem Distinct.nodup_sorted (h : r.Distinct) : (r.sortedFields.map Prod.fst).Nodup :=
  (r.sortedFields_perm.map Prod.fst).nodup_iff.mpr h.nodup

theorem sortedFields_strict (h : r.Distinct) : r.sortedFields.Pairwise fun a b => a.1 < b.1 := by
  refine (sortedFields_pairwise r).imp₂ (fun a b hle hne => ?_) (List.pairwise_map.mp h.nodup_sorted)
  exact String.not_le.mp fun hge => hne (String.le_antisymm hle hge)

/-- There is one sorted list of fields with different keys. -/
theorem sortedFields_congr (h : r.Distinct) (hperm : r'.fields.Perm r.fields) :
    r'.sortedFields = r.sortedFields := by
  have hsame : r'.sortedFields.Perm r.sortedFields :=
    (r'.sortedFields_perm.trans hperm).trans r.sortedFields_perm.symm
  refine hsame.eq_of_pairwise (fun a b ha hb hab hba => ?_) (sortedFields_pairwise r')
    (sortedFields_pairwise r)
  have ha' : a ∈ r.fields := hperm.mem_iff.mp (r'.sortedFields_perm.mem_iff.mp ha)
  have hb' : b ∈ r.fields := r.sortedFields_perm.mem_iff.mp hb
  exact List.inj_on_of_nodup_map h.nodup ha' hb' (String.le_antisymm hab hba)

theorem nodup_keys_pairs (h : r.Distinct) : (r.pairs.map Prod.fst).Nodup := by
  have hfree : ∀ k ∈ r.sortedFields.map Prod.fst, k ≠ "event" ∧ k ≠ "severity" := by
    intro k hk
    obtain ⟨p, hp, rfl⟩ := List.mem_map.mp hk
    exact h.free p (r.sortedFields_perm.mem_iff.mp hp)
  have hne : "event" ≠ "severity" := by decide
  refine List.nodup_cons.mpr ⟨fun hmem => ?_, List.nodup_cons.mpr ⟨fun hmem => ?_, h.nodup_sorted⟩⟩
  · rcases List.mem_cons.mp hmem with heq | hmem
    · exact hne heq
    · exact (hfree _ hmem).1 rfl
  · exact (hfree _ hmem).2 rfl

theorem mem_pairs {k t : String} : (k, t) ∈ r.pairs ↔
    k = "event" ∧ t = r.event ∨ k = "severity" ∧ t = r.severity.text ∨ (k, t) ∈ r.fields := by
  unfold pairs
  rw [List.mem_cons, List.mem_cons, Prod.mk.injEq, Prod.mk.injEq, r.sortedFields_perm.mem_iff]

/-- The value of a line, its members in the order of their keys. -/
theorem exists_members (h : r.Distinct) : ∃ members : List (String × Value),
    parse? (unlines [r.line]) = some (.obj members) ∧ (members.map Prod.fst).Nodup ∧
      ∀ k v, (k, v) ∈ members ↔ ∃ t, v = .str t ∧ (k, t) ∈ r.pairs := by
  have hkeys : ((r.pairs.map fun p => (p.1, Value.str p.2)).map Prod.fst).Nodup := by
    rw [List.map_map]
    exact nodup_keys_pairs h
  refine ⟨_, parse?_line r, Dict.nodup_keys _, fun k v => ?_⟩
  rw [(Dict.entries_ofList_perm hkeys).mem_iff, List.mem_map]
  constructor
  · rintro ⟨p, hp, heq⟩
    obtain ⟨rfl, rfl⟩ := Prod.mk.inj heq
    exact ⟨p.2, rfl, hp⟩
  · rintro ⟨t, rfl, hmem⟩
    exact ⟨(k, t), hmem, rfl⟩

/-! ## Read back -/

/-- **Log lines.**  The line of a record has one line feed, at its end.  Read as a document it is
an object of texts: the event, the severity, and then the fields in the order of their keys, by
code points.  So its value has the event, the severity and the fields, each key once, and nothing
else.  The order in which the fields are given does not matter. -/
theorem line_reads_back (r : LogRecord) (hkeys : (r.fields.map Prod.fst).Nodup)
    (hfree : ∀ p ∈ r.fields, p.1 ≠ "event" ∧ p.1 ≠ "severity") :
    ((unlines [r.line]).toList.count '\n' = 1 ∧ (unlines [r.line]).toList.getLast? = some '\n') ∧
    (∃ sorted : List (String × String), sorted.Perm r.fields ∧
      sorted.Pairwise (fun a b => a.1 < b.1) ∧
      Json.read (unlines [r.line]) =
        (.obj ((("event", r.event) :: ("severity", r.severity.text) :: sorted).map
          fun p => (some p.1, .str p.2)), true)) ∧
    (∃ members : List (String × Value), parse? (unlines [r.line]) = some (.obj members) ∧
      (members.map Prod.fst).Nodup ∧
      ∀ k v, (k, v) ∈ members ↔ ∃ t, v = .str t ∧
        (k = "event" ∧ t = r.event ∨ k = "severity" ∧ t = r.severity.text ∨ (k, t) ∈ r.fields)) ∧
    ∀ fields : List (String × String), fields.Perm r.fields →
      unlines [({ r with fields := fields } : LogRecord).line] = unlines [r.line] := by
  have h : r.Distinct := ⟨hkeys, hfree⟩
  have hline : (unlines [r.line]).toList = r.line.toList ++ ['\n'] := by
    simp [unlines]
  refine ⟨⟨?_, ?_⟩, ⟨r.sortedFields, r.sortedFields_perm, sortedFields_strict h, read_line r⟩, ?_, ?_⟩
  · rw [hline, List.count_append, List.count_eq_zero.mpr r.newline_not_mem_line]
    rfl
  · rw [hline, List.getLast?_concat]
  · obtain ⟨members, hparse, hnodup, hmem⟩ := exists_members h
    refine ⟨members, hparse, hnodup, fun k v => ?_⟩
    simp only [hmem, mem_pairs]
  · intro fields hperm
    have hsorted : ({ r with fields := fields } : LogRecord).sortedFields = r.sortedFields :=
      sortedFields_congr h hperm
    unfold line pairs
    rw [hsorted]

end LogRecord

/-! ## A value that looks like the end of its line

It has a quote, a comma, a line feed and two control characters in it. -/

namespace Sample

def noisyRecord : LogRecord where
  severity := .warn
  event := "ENTITY_METADATA_MISSING"
  fields := [("node", "#3"), ("entity", "\"\x7d,\n\x01\u0085\\")]

theorem noisy_reads_back :
    (unlines [noisyRecord.line]).toList.count '\n' = 1 ∧
      (∃ members : List (String × Json.Value),
        Json.parse? (unlines [noisyRecord.line]) = some (.obj members) ∧
          ("entity", .str "\"\x7d,\n\x01\u0085\\") ∈ members) ∧
      unlines [({ noisyRecord with fields := noisyRecord.fields.reverse } : LogRecord).line] =
        unlines [noisyRecord.line] := by
  obtain ⟨⟨hcount, -⟩, -, ⟨members, hparse, -, hmem⟩, hperm⟩ :=
    noisyRecord.line_reads_back (by decide) (by decide)
  refine ⟨hcount, ⟨members, hparse, ?_⟩, hperm _ (List.reverse_perm _)⟩
  exact (hmem _ _).mpr ⟨_, rfl, .inr (.inr (List.mem_cons_of_mem _ List.mem_cons_self))⟩

end Sample

end Delegability
