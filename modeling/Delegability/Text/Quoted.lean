/-
# `Delegability.Text.Quoted` — quoted text in messages

A message that shows a name puts it in double quotes and makes every character
of it visible: the quote and the backslash with a backslash before them, tab,
line feed, carriage return and NUL by a letter, and each other character that
would not be seen by its code point in braces.
-/
import Delegability.Text.Hex
import Delegability.Text.Unseen

namespace Delegability.Text

/-- How `c` is written in a quoted text. -/
def quotedChar (c : Char) : List Char :=
  match c with
  | '"' => ['\\', '"']
  | '\\' => ['\\', '\\']
  | '\t' => ['\\', 't']
  | '\n' => ['\\', 'n']
  | '\r' => ['\\', 'r']
  | '\x00' => ['\\', '0']
  | c =>
    if isUnseen c then '\\' :: 'u' :: '{' :: hexDigits c.toNat ++ ['}']
    else [c]

/-- A text in quotes, with every character of it visible. -/
def quoted (s : String) : String :=
  String.ofList ('"' :: s.toList.flatMap quotedChar ++ ['"'])

end Delegability.Text
