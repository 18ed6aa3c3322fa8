/-
# `Delegability.Template` — messages with holes

A template is text with numbered holes `{0}`; a doubled brace is a single
brace of the text.  Filling goes through the template once, from the front, and
never looks at what it has put in.  A hole that no argument fills, and a brace
that starts no hole, stay as they are written.

Filling is a machine over characters with three states, so that it ends on every
text and a template may be filled piece by piece.
-/

namespace Delegability.Template

/-- Where filling stands. -/
inductive State where
  | plain
  /-- After an opening brace and these digits. -/
  | opened (digits : List Char)
  /-- After a closing brace that may be the first of two. -/
  | closed
deriving DecidableEq

/-- The number written by decimal digits; there is none without digits. -/
def index? : List Char → Option Nat
  | [] => none
  | ds => some (ds.foldl (fun n d => n * 10 + (d.toNat - '0'.toNat)) 0)

/-- The argument that fills a hole with these digits. -/
def argument? (args : List String) (digits : List Char) : Option (List Char) :=
  ((index? digits).bind fun i => args[i]?).map String.toList

/-- A character outside holes and braces. -/
def enter (c : Char) : List Char × State :=
  if c = '{' then ([], .opened [])
  else if c = '}' then ([], .closed)
  else ([c], .plain)

/-- What is still to be written when the state ends here. -/
def State.pending : State → List Char
  | .plain => []
  | .opened ds => '{' :: ds
  | .closed => ['}']

/-- One character: what is written, and the state after it. -/
def step (args : List String) (s : State) (c : Char) : List Char × State :=
  match s with
  | .plain => enter c
  | .closed => if c = '}' then (['}'], .plain) else ('}' :: (enter c).1, (enter c).2)
  | .opened ds =>
    if ds.isEmpty && c = '{' then (['{'], .plain)
    else if c.isDigit then ([], .opened (ds ++ [c]))
    else
      match argument? args ds, c with
      | some arg, '}' => (arg, .plain)
      | _, c => ('{' :: ds ++ (enter c).1, (enter c).2)

/-- The rest of a template, from a state. -/
def fillFrom (args : List String) : State → List Char → List Char
  | s, [] => s.pending
  | s, c :: cs => (step args s c).1 ++ fillFrom args (step args s c).2 cs

/-- A template with its holes filled. -/
def fill (template : String) (args : List String) : String :=
  String.ofList (fillFrom args .plain template.toList)

/-- A brace doubled. -/
def escapeChar (c : Char) : List Char :=
  if c = '{' ∨ c = '}' then [c, c] else [c]

/-- A text as a template without holes: its braces doubled. -/
def escape (s : String) : String :=
  String.ofList (s.toList.flatMap escapeChar)

end Delegability.Template
