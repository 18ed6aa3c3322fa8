/-
# `Delegability.Json.Decode` — from documents to values of the domain

A decoder takes a document apart in the order of its text and reports the first
fault.  Records are written as objects, with every field at most once and
unknown fields passed over, or as arrays of their fields in the order of
declaration.  A choice between kinds is written as a field `kind` beside the
fields of that kind; such an object has to be usable throughout before its
fields are looked at, and what stands inside it is `buffered`.  How a document
is supplied decides what of a choice is looked at first.

Faults of form have one message among them; a fault that names something has
its own.
-/
import Delegability.Json.Reader

namespace Delegability.Json

/-- What is wrong with a document; `ε` is why a well-formed part may be refused. -/
inductive Fault (ε : Type) where
  /-- It is not well formed, or not of the kind that is due. -/
  | form
  | missingField (name : String)
  | duplicateField (name : String)
  /-- A name that is none of those expected. -/
  | unknownVariant (name : String) (expected : List String)
  | refused (why : ε)
deriving DecidableEq

/-- A name between backticks. -/
def ticked (s : String) : String := "`" ++ s ++ "`"

/-- What is expected, as a message lists it. -/
def expectation : List String → String
  | [a, b] => "expected " ++ ticked a ++ " or " ++ ticked b
  | names => "expected one of " ++ ", ".intercalate (names.map ticked)

/-- The message of a fault. -/
def Fault.message {ε : Type} (why : ε → String) : Fault ε → String
  | .form => "<json>"
  | .missingField f => "missing field " ++ ticked f
  | .duplicateField f => "duplicate field " ++ ticked f
  | .unknownVariant v names => "unknown variant " ++ ticked v ++ ", " ++ expectation names
  | .refused e => why e

/-- A decoder of `α`. -/
abbrev Decoder (ε α : Type) := Document → Except (Fault ε) α

variable {ε α σ : Type}

/-! ## Plain values -/

/-- A text. -/
def decodeText : Decoder ε String
  | .str s => .ok s
  | _ => .error .form

/-- A truth value. -/
def decodeBool : Decoder ε Bool
  | .bool b => .ok b
  | _ => .error .form

/-- Any value. -/
def decodeValue (d : Document) : Except (Fault ε) Value :=
  match d.value? with
  | some v => .ok v
  | none => .error .form

/-- A value that may be `null`. -/
def decodeNullable (dec : Decoder ε α) : Decoder ε (Option α)
  | .null => .ok none
  | d => (dec d).map some

/-- An array of values of one kind. -/
def decodeList (dec : Decoder ε α) : Decoder ε (List α)
  | .arr ds => ds.mapM dec
  | _ => .error .form

/-- The members of an object of values of one kind. -/
def decodePairs (dec : Decoder ε α) : Decoder ε (List (String × α))
  | .obj ms => ms.mapM fun m =>
    match m.1 with
    | some k => (dec m.2).map (k, ·)
    | none => .error .form
  | _ => .error .form

/-- A dictionary; of two members with one key the later counts. -/
def decodeDict (dec : Decoder ε α) (d : Document) : Except (Fault ε) (Dict String α) :=
  (decodePairs dec d).map Dict.ofList

/-! ## Records -/

/-- A field of a record that is being put together in `σ`. -/
structure Slot (ε σ : Type) where
  name : String
  /-- Whether it has a value already. -/
  filled : σ → Bool
  /-- Gives it a value. -/
  fill : Document → σ → Except (Fault ε) σ

/-- The slot of a field that `get` reads and `set` writes. -/
def slot (name : String) (get : σ → Option α) (set : α → σ → σ) (dec : Decoder ε α) :
    Slot ε σ where
  name := name
  filled s := (get s).isSome
  fill d s := (dec d).map (set · s)

/-- Fields by name, in the order of the text. -/
def fillMembers (slots : List (Slot ε σ)) :
    List (Option String × Document) → σ → Except (Fault ε) σ
  | [], s => .ok s
  | (none, _) :: _, _ => .error .form
  | (some k, d) :: ms, s =>
    match slots.find? fun f => f.name = k with
    | some f =>
      if f.filled s then .error (.duplicateField k)
      else
        match f.fill d s with
        | .ok s => fillMembers slots ms s
        | .error e => .error e
    | none => if d.skippable then fillMembers slots ms s else .error .form

/-- Fields by place. -/
def fillItems : List (Slot ε σ) → List Document → σ → Except (Fault ε) σ
  | _, [], s => .ok s
  | [], _ :: _, _ => .error .form
  | f :: fs, d :: ds, s =>
    match f.fill d s with
    | .ok s => fillItems fs ds s
    | .error e => .error e

/-- A record in either form; `finish` gets whether it was an array. -/
def decodeRecord (slots : List (Slot ε σ)) (init : σ) (finish : Bool → σ → Except (Fault ε) α) :
    Decoder ε α
  | .obj ms =>
    match fillMembers slots ms init with
    | .ok s => finish false s
    | .error e => .error e
  | .arr ds =>
    match fillItems slots ds init with
    | .ok s => finish true s
    | .error e => .error e
  | _ => .error .form

/-- A field that has to be there; an array that is too short has a fault of form. -/
def required (listed : Bool) (name : String) : Option α → Except (Fault ε) α
  | some a => .ok a
  | none => .error (if listed then .form else .missingField name)

/-! ## Choices -/

/-- How a document is supplied to a decoder. -/
inductive Supply where
  /-- Member by member, as the text is read. -/
  | streamed
  /-- As a part of a text that was set aside. -/
  | buffered
  /-- As a value. -/
  | given
deriving DecidableEq

/-- The option of a given name. -/
def pick (options : List (String × α)) (s : String) : Except (Fault ε) α :=
  match options.lookup s with
  | some a => .ok a
  | none => .error (.unknownVariant s (options.map Prod.fst))

/-- One of several names, written as a text or as the key of an object that
holds nothing else.  A further member is a fault before the name is looked at,
unless it is still to be read. -/
def decodeName (supply : Supply) (options : List (String × α)) : Decoder ε α
  | .str s => pick options s
  | .obj ((some k, d) :: ms) =>
    if supply ≠ .streamed ∧ !ms.isEmpty then .error .form
    else
      match pick options k with
      | .error e => .error e
      | .ok a =>
        match d, ms with
        | .null, [] => .ok a
        | .obj [], [] => if supply = .buffered then .ok a else .error .form
        | _, _ => .error .form
  | _ => .error .form

/-- The kind of a tagged object, by name, or by number where it is buffered. -/
def decodeKind (supply : Supply) (kinds : List (String × α)) : Decoder ε α
  | .str s => pick kinds s
  | .num (.int n) =>
    match supply, n with
    | .buffered, .ofNat i =>
      match kinds[i]? with
      | some k => .ok k.2
      | none => .error .form
    | _, _ => .error .form
  | _ => .error .form

/-- The name of the field that holds the kind. -/
def kindField : String := "kind"

/-- Looks for the kind among the members; the others are kept in their order. -/
def splitKind (supply : Supply) (kinds : List (String × α)) :
    List (Option String × Document) → Option α → List (Option String × Document) →
      Except (Fault ε) (α × Document)
  | [], none, _ => .error (.missingField kindField)
  | [], some a, rest => .ok (a, .obj rest.reverse)
  | (none, _) :: _, _, _ => .error .form
  | (some k, d) :: ms, found, rest =>
    if k = kindField then
      if found.isSome then .error (.duplicateField kindField)
      else
        match decodeKind supply kinds d with
        | .ok a => splitKind supply kinds ms (some a) rest
        | .error e => .error e
    else if d.usable then splitKind supply kinds ms found ((some k, d) :: rest)
    else .error .form

/-- The kind of a document and the rest of it: an object with the kind among
its members, or an array with the kind in front. -/
def decodeTagged (supply : Supply) (kinds : List (String × α)) : Decoder ε (α × Document)
  | .obj ms => splitKind supply kinds ms none []
  | .arr [] => .error (.missingField kindField)
  | .arr (d :: ds) =>
    match decodeKind supply kinds d with
    | .error e => .error e
    | .ok a => if ds.all Document.usable then .ok (a, .arr ds) else .error .form
  | _ => .error .form

/-- A kind without fields: members are passed over, further items are not. -/
def decodeNothing : Decoder ε Unit
  | .obj _ => .ok ()
  | .arr [] => .ok ()
  | _ => .error .form

/-! ## Texts -/

/-- Decodes a whole text; what follows the value counts after the value. -/
def decode (dec : Decoder ε α) (s : String) : Except (Fault ε) α :=
  match read s with
  | (d, whole) =>
    match dec d with
    | .ok a => if whole then .ok a else .error .form
    | .error e => .error e

end Delegability.Json
