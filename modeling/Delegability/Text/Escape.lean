/-
# `Delegability.Text.Escape` — text inside double quotes

Reports and log lines are both written as JSON, but they do not escape the same
characters: a report leaves `DEL` and the controls above it as they are and has
short forms for backspace and form feed; a log line writes every control
character that has no short form by its number.  The two are one function and
two values of `EscapeStyle`.
-/
import Delegability.Text.Hex

namespace Delegability.Text

/-- What is escaped inside double quotes, and how. -/
structure EscapeStyle where
  /-- Characters written as a backslash and one letter. -/
  short : List (Char × Char)
  /-- The other characters that are written as `\u` and four digits. -/
  numbered : Char → Bool

/-- How `c` is written. -/
def EscapeStyle.escapeChar (st : EscapeStyle) (c : Char) : List Char :=
  match st.short.lookup c with
  | some l => ['\\', l]
  | none => if st.numbered c then '\\' :: 'u' :: hex4 c.toNat else [c]

/-- How a text is written between the quotes. -/
def EscapeStyle.escape (st : EscapeStyle) (cs : List Char) : List Char :=
  cs.flatMap st.escapeChar

/-- A text with its quotes. -/
def EscapeStyle.quote (st : EscapeStyle) (s : String) : String :=
  String.ofList ('"' :: st.escape s.toList ++ ['"'])

/-- The style of documents: only what a document may not hold raw is escaped. -/
def documentStyle : EscapeStyle where
  short := [('"', '"'), ('\\', '\\'), ('\n', 'n'), ('\r', 'r'), ('\t', 't'),
    ('\x08', 'b'), ('\x0c', 'f')]
  numbered c := c.toNat < 0x20

/-- The style of log lines: no control character is written raw. -/
def logStyle : EscapeStyle where
  short := [('"', '"'), ('\\', '\\'), ('\n', 'n'), ('\r', 'r'), ('\t', 't')]
  numbered c := c.toNat < 0x20 || (0x7F ≤ c.toNat && c.toNat ≤ 0x9F)

end Delegability.Text
