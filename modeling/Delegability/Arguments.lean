/-
# `Delegability.Arguments` — the command line

Two commands, `check` and `explain`, each with the options `--input` and
`--config`.  An option's value stands behind a `=` or is the next argument; then
the option is pending until the next argument that settles it.  Arguments are
taken one by one, and the first that is wrong is the fault.
-/

namespace Delegability

/-- What the program is asked to do. -/
inductive Action where
  /-- Writes the outcome as JSON. -/
  | check
  /-- Writes the outcome for people. -/
  | explain
deriving DecidableEq, Inhabited

namespace Action

/-- The actions by name. -/
def named : List (String × Action) := [("check", .check), ("explain", .explain)]

/-- The name of an action. -/
def name : Action → String
  | .check => "check"
  | .explain => "explain"

end Action

/-- The name of the command that explains the others. -/
def helpCommand : String := "help"

/-- A call of the program. -/
structure Invocation where
  action : Action
  /-- The path of the case; without it the case is read from standard input. -/
  input : Option String := none
  /-- The path of the configuration. -/
  config : Option String := none
deriving DecidableEq

/-- Why arguments are not a call of the program. -/
inductive UsageError where
  /-- There is no command. -/
  | missingCommand
  /-- Help was asked for: about a command, or about the program. -/
  | help (about : Option Action)
  | version
  | unknownCommand
  | unknownArgument
  /-- An option without a value, or with an empty one. -/
  | missingValue
  | repeatedOption
  /-- A value for an option that has none. -/
  | needlessValue
deriving DecidableEq

namespace Arguments

/-! ## Single arguments -/

/-- How an argument looks. -/
inductive Shape where
  /-- `--` -/
  | separator
  /-- `--name` or `--name=value` -/
  | long (name : List Char) (value : Option (List Char))
  /-- `-` and letters; the first of them is what matters -/
  | short (letter : Char)
  /-- Anything else, `-` by itself among it. -/
  | plain

/-- The name before the first `=` and the value after it. -/
def splitValue : List Char → List Char × Option (List Char)
  | [] => ([], none)
  | c :: cs =>
    if c = '=' then ([], some cs)
    else ((c :: (splitValue cs).1), (splitValue cs).2)

/-- How an argument looks. -/
def shape (arg : String) : Shape :=
  match arg.toList with
  | ['-', '-'] => .separator
  | '-' :: '-' :: cs => .long (splitValue cs).1 (splitValue cs).2
  | '-' :: c :: _ => .short c
  | _ => .plain

/-! ## Options of a command -/

/-- The options with a value. -/
inductive Flag where
  | input | config
deriving DecidableEq

/-- The option of a name. -/
def flag? (name : List Char) : Option Flag :=
  if name = ['i', 'n', 'p', 'u', 't'] then some .input
  else if name = ['c', 'o', 'n', 'f', 'i', 'g'] then some .config
  else none

/-- The name of the option that asks for help. -/
def helpName : List Char := ['h', 'e', 'l', 'p']

/-- The name of the option that asks for the version. -/
def versionName : List Char := ['v', 'e', 'r', 's', 'i', 'o', 'n']

/-- What stands after an option that is not settled yet. -/
structure Pending where
  flag : Flag
  value : Option String := none

/-- How far the arguments of a command are read. -/
structure State where
  invocation : Invocation
  pending : Option Pending := none

/-- The value of an option. -/
def value? (i : Invocation) : Flag → Option String
  | .input => i.input
  | .config => i.config

/-- Gives an option a value. -/
def withValue (i : Invocation) (f : Flag) (v : String) : Invocation :=
  match f with
  | .input => { i with input := some v }
  | .config => { i with config := some v }

/-- Takes in an option with its value.  That it has none counts before that it
is repeated, and this before that the value is empty. -/
def settleOption (i : Invocation) (f : Flag) : Option String → Except UsageError Invocation
  | none => .error .missingValue
  | some v =>
    if (value? i f).isSome then .error .repeatedOption
    else if v.isEmpty then .error .missingValue
    else .ok (withValue i f v)

/-- Settles the pending option. -/
def settle (s : State) : Except UsageError Invocation :=
  match s.pending with
  | none => .ok s.invocation
  | some p => settleOption s.invocation p.flag p.value

/-- Asks for help, once the pending option is settled. -/
def helpFor (s : State) : UsageError :=
  match settle s with
  | .ok i => .help (some i.action)
  | .error e => e

/-- One more argument of a command. -/
def step (s : State) (arg : String) : Except UsageError State :=
  match shape arg with
  | .separator => .error .unknownArgument
  | .long name none =>
    match flag? name with
    | some f => do return { invocation := ← settle s, pending := some { flag := f } }
    | none => .error (if name = helpName then helpFor s else .unknownArgument)
  | .long name (some v) =>
    match flag? name with
    | some f => do
      let settled ← settle s
      return { invocation := ← settleOption settled f (some (String.ofList v)) }
    | none => .error (if name = helpName then .needlessValue else .unknownArgument)
  | .short c => .error (if c = 'h' then helpFor s else .unknownArgument)
  | .plain =>
    match s.pending with
    | some { flag, value := none } => .ok { s with pending := some { flag, value := some arg } }
    | _ => .error .unknownArgument

/-- The arguments of a command.  After a separator there may be nothing more. -/
def parseCommand (s : State) : List String → Except UsageError Invocation
  | [] => settle s
  | arg :: args =>
    match shape arg, args with
    | .separator, [] => settle s
    | .separator, _ => .error .unknownArgument
    | _, _ =>
      match step s arg with
      | .ok s => parseCommand s args
      | .error e => .error e

/-! ## Commands -/

/-- What help is asked about. -/
def parseHelp : List String → UsageError
  | [] => .help none
  | [name] =>
    match Action.named.lookup name with
    | some a => .help (some a)
    | none => if name = helpCommand then .help none else .unknownCommand
  | _ => .unknownCommand

/-- What stands after a separator in front of any command. -/
def parseSeparated : List String → UsageError
  | [] => .missingCommand
  | name :: _ =>
    if (Action.named.lookup name).isSome || name = helpCommand then .unknownArgument
    else .unknownCommand

/-- An option in front of any command. -/
def leadingLong (name : List Char) (value : Option (List Char)) : UsageError :=
  if name = helpName then if value.isSome then .needlessValue else .help none
  else if name = versionName then if value.isSome then .needlessValue else .version
  else .unknownArgument

/-- A letter in front of any command. -/
def leadingShort (c : Char) : UsageError :=
  if c = 'h' then .help none else if c = 'V' then .version else .unknownArgument

/-- The call that arguments make. -/
def parse : List String → Except UsageError Invocation
  | [] => .error .missingCommand
  | arg :: args =>
    match shape arg with
    | .separator => .error (parseSeparated args)
    | .long name value => .error (leadingLong name value)
    | .short c => .error (leadingShort c)
    | .plain =>
      match Action.named.lookup arg with
      | some action => parseCommand { invocation := { action } } args
      | none => .error (if arg = helpCommand then parseHelp args else .unknownCommand)

end Arguments

end Delegability
