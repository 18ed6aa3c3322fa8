/-
# `Delegability.Json.Reader` — reading a document, one character at a time

`Reader.step` is a machine over characters: its state is what is being read and
the containers that are open around it.  Reading a text is a fold of `step`, so
it ends on every text, and reading two pieces is reading one after the other
(`run_append`).  The form is that of RFC 8259 and nothing more: four blanks, no
comments, no trailing comma, no byte order mark.

A container inside 127 others is `unusable`; a text that breaks off, or goes
wrong, leaves the document as far as it was read.
-/
import Delegability.Json.Document
import Delegability.Text.Hex

namespace Delegability.Json

/-- How many containers may be open at once. -/
def nestingLimit : Nat := 127

/-- The blanks of a document. -/
def isSpace (c : Char) : Bool :=
  c == ' ' || c == '\t' || c == '\n' || c == '\r'

/-! ## Surrogate pairs -/

/-- The first half of a surrogate pair. -/
def isLead (u : Nat) : Bool := 0xD800 ≤ u && u ≤ 0xDBFF

/-- The second half of a surrogate pair. -/
def isTrail (u : Nat) : Bool := 0xDC00 ≤ u && u ≤ 0xDFFF

/-- The characters of a sequence of code units; a half of a pair must stand
with the other half. -/
def joinUnits : List Nat → Option (List Char)
  | [] => some []
  | [u] => if isLead u || isTrail u then none else some [Char.ofNat u]
  | u :: v :: us =>
    if isLead u then
      if isTrail v then
        (joinUnits us).map (Char.ofNat (0x10000 + (u - 0xD800) * 0x400 + (v - 0xDC00)) :: ·)
      else none
    else if isTrail u then none
    else (joinUnits (v :: us)).map (Char.ofNat u :: ·)

/-! ## The state -/

/-- An open container, the latest part first. -/
inductive Frame where
  | arr (items : List Document)
  /-- `key` is the key whose value is being read. -/
  | obj (members : List (Option String × Document)) (key : Option String)

/-- Where an escape in a text stands. -/
inductive Escape where
  | none
  /-- After the backslash. -/
  | mark
  /-- Inside the four digits of a number, `left` of them still to come. -/
  | hex (value left : Nat)

/-- Where a numeral stands. -/
inductive Phase where
  | sign | zero | whole | point | fraction | mark | markSign | exponent
deriving DecidableEq

/-- What is being read. -/
inductive Mode where
  /-- A value is due; `closable` if the array may end instead. -/
  | value (closable : Bool)
  /-- A key is due; `closable` if the object may end instead. -/
  | key (closable : Bool)
  | colon
  /-- A value has ended: a comma or the end of the container is due. -/
  | after
  /-- Inside quotes; the code units so far, the latest first. -/
  | text (units : List Nat) (escape : Escape) (isKey : Bool)
  | number (n : Numeral) (phase : Phase)
  /-- Inside a word whose letters `rest` are due. -/
  | word (rest : List Char) (result : Document)

/-- The state of the reader. -/
inductive Reader where
  /-- Reading goes on inside the open containers `stack`, the innermost first. -/
  | going (mode : Mode) (stack : List Frame)
  /-- One whole value has been read; only blanks may follow. -/
  | done (d : Document)
  /-- Reading has stopped, with what was read. -/
  | stopped (d : Document)

namespace Reader

/-- The state before the first character. -/
def start : Reader := .going (.value false) []

/-- Puts a part that was cut off into the containers around it. -/
def abandon (d : Document) : List Frame → Document
  | [] => d
  | .arr items :: st => abandon (.arr (items.reverse ++ [d])) st
  | .obj members key :: st => abandon (.obj (members.reverse ++ [(key, d)])) st

/-- Reading cannot go on. -/
def stop (st : List Frame) : Reader := .stopped (abandon .broken st)

/-- Hands a finished value to the container around it. -/
def give (d : Document) : List Frame → Reader
  | [] => .done d
  | .arr items :: st => .going .after (.arr (d :: items) :: st)
  | .obj members key :: st => .going .after (.obj ((key, d) :: members) none :: st)

/-- Ends the innermost container. -/
def close (d : Document) (st : List Frame) : Reader :=
  give (if nestingLimit ≤ st.length then .unusable else d) st

/-! ## Steps -/

/-- After a value. -/
def stepAfter (st : List Frame) (c : Char) : Reader :=
  if isSpace c then .going .after st
  else
    match c, st with
    | ',', .arr _ :: _ => .going (.value false) st
    | ',', .obj _ _ :: _ => .going (.key false) st
    | ']', .arr items :: st => close (.arr items.reverse) st
    | '}', .obj members _ :: st => close (.obj members.reverse) st
    | _, _ => stop st

/-- Where a value is due. -/
def stepValue (closable : Bool) (st : List Frame) (c : Char) : Reader :=
  if isSpace c then .going (.value closable) st
  else
    match c with
    | '"' => .going (.text [] .none false) st
    | '[' => .going (.value true) (.arr [] :: st)
    | '{' => .going (.key true) (.obj [] none :: st)
    | 'n' => .going (.word ['u', 'l', 'l'] .null) st
    | 't' => .going (.word ['r', 'u', 'e'] (.bool true)) st
    | 'f' => .going (.word ['a', 'l', 's', 'e'] (.bool false)) st
    | '-' => .going (.number { negative := true } .sign) st
    | '0' => .going (.number { whole := ['0'] } .zero) st
    | ']' =>
      match closable, st with
      | true, .arr items :: st => close (.arr items.reverse) st
      | _, st => stop st
    | c => if c.isDigit then .going (.number { whole := [c] } .whole) st else stop st

/-- Where a key is due. -/
def stepKey (closable : Bool) (st : List Frame) (c : Char) : Reader :=
  if isSpace c then .going (.key closable) st
  else
    match c, closable, st with
    | '"', _, st => .going (.text [] .none true) st
    | '}', true, .obj members _ :: st => close (.obj members.reverse) st
    | _, _, st => stop st

/-- Where a colon is due. -/
def stepColon (st : List Frame) (c : Char) : Reader :=
  if isSpace c then .going .colon st
  else if c == ':' then .going (.value false) st
  else stop st

/-- The end of a text. -/
def endText (units : List Nat) (isKey : Bool) (st : List Frame) : Reader :=
  let s := (joinUnits units.reverse).map String.ofList
  match isKey, st with
  | true, .obj members _ :: st => .going .colon (.obj members s :: st)
  | _, st => give (match s with | some s => .str s | none => .unusable) st

/-- The code unit of a one-letter escape. -/
def shortEscape? : Char → Option Char
  | '"' => some '"'
  | '\\' => some '\\'
  | '/' => some '/'
  | 'b' => some '\x08'
  | 'f' => some '\x0c'
  | 'n' => some '\n'
  | 'r' => some '\r'
  | 't' => some '\t'
  | _ => none

/-- Inside quotes. -/
def stepText (units : List Nat) (e : Escape) (isKey : Bool) (st : List Frame) (c : Char) :
    Reader :=
  match e with
  | .none =>
    if c == '"' then endText units isKey st
    else if c == '\\' then .going (.text units .mark isKey) st
    else if c.toNat < 0x20 then stop st
    else .going (.text (c.toNat :: units) .none isKey) st
  | .mark =>
    if c == 'u' then .going (.text units (.hex 0 4) isKey) st
    else
      match shortEscape? c with
      | some u => .going (.text (u.toNat :: units) .none isKey) st
      | none => stop st
  | .hex value left =>
    match Text.hexValue? c with
    | none => stop st
    | some h =>
      let value := value * 16 + h
      if left ≤ 1 then .going (.text (value :: units) .none isKey) st
      else .going (.text units (.hex value (left - 1)) isKey) st

/-- Inside a word. -/
def stepWord (rest : List Char) (d : Document) (st : List Frame) (c : Char) : Reader :=
  match rest with
  | [] => stop st
  | [x] => if c == x then give d st else stop st
  | x :: rest => if c == x then .going (.word rest d) st else stop st

/-- The value of a numeral that has ended. -/
def numberValue (n : Numeral) : Document :=
  match n.number? with
  | some n => .num n
  | none => .unusable

/-- A numeral that ends before the character `c`. -/
def endNumber (n : Numeral) (st : List Frame) (c : Char) : Reader :=
  match give (numberValue n) st with
  | .going .after st => stepAfter st c
  | .done d => if isSpace c then .done d else .stopped d
  | r => r

/-- Inside a numeral. -/
def stepNumber (n : Numeral) (p : Phase) (st : List Frame) (c : Char) : Reader :=
  let isMark := c == 'e' || c == 'E'
  match p with
  | .sign =>
    if c == '0' then .going (.number { n with whole := ['0'] } .zero) st
    else if c.isDigit then .going (.number { n with whole := [c] } .whole) st
    else stop st
  | .zero =>
    if c == '.' then .going (.number n .point) st
    else if isMark then .going (.number n .mark) st
    else if c.isDigit then stop st
    else endNumber n st c
  | .whole =>
    if c.isDigit then .going (.number { n with whole := n.whole ++ [c] } .whole) st
    else if c == '.' then .going (.number n .point) st
    else if isMark then .going (.number n .mark) st
    else endNumber n st c
  | .point =>
    if c.isDigit then .going (.number { n with fraction := [c] } .fraction) st else stop st
  | .fraction =>
    if c.isDigit then .going (.number { n with fraction := n.fraction ++ [c] } .fraction) st
    else if isMark then .going (.number n .mark) st
    else endNumber n st c
  | .mark =>
    if c == '+' then .going (.number n .markSign) st
    else if c == '-' then .going (.number { n with exponentNegative := true } .markSign) st
    else if c.isDigit then .going (.number { n with exponent := [c] } .exponent) st
    else stop st
  | .markSign =>
    if c.isDigit then .going (.number { n with exponent := [c] } .exponent) st else stop st
  | .exponent =>
    if c.isDigit then .going (.number { n with exponent := n.exponent ++ [c] } .exponent) st
    else endNumber n st c

/-- One character. -/
def step : Reader → Char → Reader
  | .stopped d, _ => .stopped d
  | .done d, c => if isSpace c then .done d else .stopped d
  | .going (.value closable) st, c => stepValue closable st c
  | .going (.key closable) st, c => stepKey closable st c
  | .going .colon st, c => stepColon st c
  | .going .after st, c => stepAfter st c
  | .going (.text units e isKey) st, c => stepText units e isKey st c
  | .going (.number n p) st, c => stepNumber n p st c
  | .going (.word rest d) st, c => stepWord rest d st c

/-- All characters of a piece of text. -/
def run (r : Reader) (cs : List Char) : Reader :=
  cs.foldl step r

/-- Reading two pieces is reading one after the other. -/
theorem run_append (r : Reader) (a b : List Char) : r.run (a ++ b) = (r.run a).run b :=
  List.foldl_append

/-- The end of the text: what was read, and whether it is one whole value. -/
def finish : Reader → Document × Bool
  | .done d => (d, true)
  | .stopped d => (d, false)
  | .going (.number n p) [] =>
    if p = .zero ∨ p = .whole ∨ p = .fraction ∨ p = .exponent then (numberValue n, true)
    else (.broken, false)
  | .going _ st => (abandon .broken st, false)

end Reader

/-- The document of a text, and whether the text is one whole value. -/
def read (s : String) : Document × Bool :=
  (Reader.start.run s.toList).finish

/-- The value of a text, if it is well formed and usable. -/
def parse? (s : String) : Option Value :=
  match read s with
  | (d, true) => d.value?
  | (_, false) => none

end Delegability.Json
