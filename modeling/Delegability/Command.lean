/-
# `Delegability.Command` — what a call of the program does

The configuration is loaded first, then the case, then the case is analysed.
Every failure has a code and a message and ends the call.  All of this is a
function of the contents of files: what is written to standard output, what is
logged, and how the call ends.
-/
import Delegability.Analysis
import Delegability.Arguments
import Delegability.Format.Case

namespace Delegability

open Json (Value)

/-! ## Failures -/

/-- Kinds of failures. -/
inductive FailureKind where
  | config | io | invalidCase | unknownFunction
deriving DecidableEq

/-- The code of a kind of failure. -/
def FailureKind.code : FailureKind → String
  | .config => "DELEG_CLI_CONFIG_ERROR"
  | .io => "DELEG_CLI_IO_ERROR"
  | .invalidCase => "DELEG_CLI_INVALID_CASE"
  | .unknownFunction => "DELEG_CLI_UNKNOWN_FUNCTION"

/-- A failure of a call. -/
structure Failure where
  kind : FailureKind
  message : String
deriving DecidableEq

namespace Failure

/-- The code of a failure. -/
def code (f : Failure) : String := f.kind.code

/-- A failure in one line. -/
def text (f : Failure) : String := f.code ++ ": " ++ f.message

/-- A failure as a value. -/
def value (f : Failure) : Value :=
  .obj [("code", .str f.code), ("message", .str f.message), ("status", .str "error")]

/-- A configuration that cannot be used. -/
def ofConfig (e : ConfigError) : Failure := ⟨.config, e.message ++ " (" ++ e.code ++ ")"⟩

/-- A document that is not a case. -/
def ofDocument (e : DocumentFault) : Failure := ⟨.invalidCase, "JSON error: " ++ e.text⟩

/-- A case that cannot be resolved. -/
def ofCase : CaseFault → Failure
  | .unknownFunction n => ⟨.unknownFunction, (CaseFault.unknownFunction n).message⟩
  | e => ⟨.invalidCase, e.message⟩

/-- A name that is none. -/
def ofName (e : NameError) : Failure := .ofCase (.badName e)

/-- A registry of functions that refuses. -/
def ofFunction : FunctionError → Failure
  | .notFound n => .ofCase (.unknownFunction n)
  | e => ⟨.invalidCase, e.message⟩

/-- A registry of entities that refuses. -/
def ofRegistry (e : RegistryError) : Failure := ⟨.invalidCase, e.message⟩

/-- An input that could not be read; standard input has no path. -/
def ofRead (path : Option String) (why : ReadFault) : Failure :=
  match path with
  | some p => ⟨.io, p ++ ": " ++ why.message⟩
  | none => ⟨.io, why.message⟩

/-- An input without content. -/
def emptyInput : Failure := ⟨.io, "Empty input"⟩

/-- A case without an enclosing function. -/
def emptyFunction : Failure := ⟨.invalidCase, "function must not be empty"⟩

end Failure

/-! ## Calls -/

/-- What a call can read. -/
structure Environment where
  file : String → Except ReadFault String
  stdin : Except ReadFault String
  stamp : Nat → Stamp

/-- Why a call ends early. -/
inductive Stop where
  | failure (f : Failure)
  /-- A rule was applied where it may not be. -/
  | violation (v : Violation)
deriving DecidableEq

/-- What a call has logged, and which of it is written. -/
structure Journal where
  /-- The least severity that is written. -/
  minimum : Severity := .warn
  /-- The log, with records of every severity. -/
  log : List LogRecord := []
deriving DecidableEq, Inhabited

/-- A part of a call. -/
abbrev Run := ExceptT Stop (StateM Journal)

namespace Run

/-- Ends the call. -/
def fail {α : Type} (f : Failure) : Run α := throw (.failure f)

/-- Goes on with a value, or ends the call. -/
def orFail {α ε : Type} (failure : ε → Failure) : Except ε α → Run α
  | .ok a => pure a
  | .error e => fail (failure e)

/-- Adds records to the log. -/
def logAll (rs : List LogRecord) : Run Unit := modify fun j => { j with log := j.log ++ rs }

/-- Adds an event to the log. -/
def logEvent (e : Event) (fields : List (String × String)) : Run Unit :=
  logAll [.ofEvent e fields]

/-- What stands for the path of a configuration that was not given. -/
def defaultSource : String := "<defaults>"

/-- Loads the configuration.  From then on it decides what is written. -/
def loadConfig (env : Environment) (path : Option String) : Run Config := do
  let config ← match path with
    | some p => orFail .ofConfig (Config.load p (env.file p))
    | none => pure {}
  modify fun j => { j with minimum := config.severity }
  logEvent .configLoaded
    [("log_level", config.severity.name), ("source", path.getD defaultSource)]
  return config

/-- Reads the input, which must not be blank. -/
def readInput (env : Environment) (path : Option String) : Run String := do
  let text ← orFail (.ofRead path) (path.elim env.stdin env.file)
  if Text.allBlank text then fail .emptyInput else return text

/-- Loads the case.  Its function must not be blank. -/
def loadCase (env : Environment) (path : Option String) : Run Case := do
  let text ← readInput env path
  let case ← orFail .ofDocument (Case.parse text)
  logEvent .caseLoaded [("function", case.function)]
  if Text.allBlank case.function then fail .emptyFunction else return case

/-- Analyses the case. -/
def analyse (env : Environment) (config : Config) (case : Case) : Run Analysis :=
  match Analysis.run env.stamp config case with
  | .ok a => do
    logAll a.ledger.log
    return a
  | .error (.fault e) => fail (.ofCase e)
  | .error (.violation v) => throw (.violation v)

/-- What `check` writes. -/
def response (a : Analysis) : String :=
  (Value.obj [("data", a.value), ("status", .str "ok")]).text ++ "\n"

/-- What an action writes. -/
def perform (env : Environment) (config : Config) (case : Case) : Action → Run String
  | .check => do return response (← analyse env config case)
  | .explain => do
    logEvent .explainBegin []
    let a ← analyse env config case
    logEvent .explainComplete []
    return a.explanation

/-- All of a call. -/
def call (env : Environment) (i : Invocation) : Run String := do
  let config ← loadConfig env i.config
  let case ← loadCase env i.input
  perform env config case i.action

end Run

/-- The outcome of a call. -/
structure Outcome where
  /-- What is written to standard output, or why nothing is. -/
  result : Except Stop String
  journal : Journal

namespace Outcome

/-- The lines of the log that are written. -/
def logLines (o : Outcome) : List String := LogRecord.linesFrom o.journal.minimum o.journal.log

/-- What a process writes to standard output. -/
def stdout (o : Outcome) : String :=
  match o.result with
  | .ok text => text
  | .error (.failure f) => f.value.text ++ "\n"
  | .error (.violation _) => ""

/-- The last line that a process writes to standard error. -/
def lastLines (o : Outcome) : List String :=
  match o.result with
  | .ok _ => []
  | .error (.failure f) => [f.text]
  | .error (.violation v) => [v.message]

/-- What a process writes to standard error. -/
def stderr (o : Outcome) : String := unlines (o.logLines ++ o.lastLines)

/-- The exit code of a process. -/
def exitCode (o : Outcome) : UInt32 :=
  match o.result with
  | .ok _ => 0
  | .error (.failure _) => 1
  | .error (.violation _) => 101

end Outcome

namespace Invocation

/-- Logs why a call ended early. -/
def logFailure (j : Journal) : Except Stop String → Journal
  | .error (.failure f) =>
    { j with log := j.log ++ [.ofEvent .commandFailed [("code", f.code), ("message", f.message)]] }
  | _ => j

/-- Carries out a call. -/
def run (i : Invocation) (env : Environment) : Outcome :=
  let (result, journal) := (Run.call env i).run {}
  ⟨result, logFailure journal result⟩

end Invocation

/-! ## Usage -/

namespace Usage

/-- The name of the program. -/
def program : String := "delegation-analyzer"

/-- The version, in one line. -/
def version : String := program ++ " 0.1.0\n"

/-- What an action does. -/
def describe : Action → String
  | .check => "Validate an analysis case and print the verdict as JSON"
  | .explain => "Validate an analysis case and print a human-readable report"

/-- Help about the program. -/
def overview : String := unlines
  ["Delegation analysis for formula expressions over remote tabular data sources", "",
   "Usage: " ++ program ++ " <COMMAND>", "",
   "Commands:",
   "  check    " ++ describe .check,
   "  explain  " ++ describe .explain,
   "  help     Print this message or the help of the given subcommand(s)", "",
   "Options:",
   "  -h, --help     Print help",
   "  -V, --version  Print version"]

/-- Help about a command. -/
def actionHelp (a : Action) : String := unlines
  [describe a, "",
   "Usage: " ++ program ++ " " ++ a.name ++ " [OPTIONS]", "",
   "Options:",
   "      --input <INPUT>    Path to the analysis case (stdin if omitted)",
   "      --config <CONFIG>  Path to configuration file",
   "  -h, --help             Print help"]

end Usage

namespace UsageError

/-- What a process writes to standard output. -/
def stdout : UsageError → String
  | .version => Usage.version
  | .help none => Usage.overview
  | .help (some a) => Usage.actionHelp a
  | _ => ""

/-- What a process writes to standard error. -/
def stderr : UsageError → String
  | .version | .help _ => ""
  | .missingCommand => Usage.overview
  | .unknownCommand => "error: unrecognized subcommand\n"
  | .unknownArgument => "error: unexpected argument found\n"
  | .missingValue => "error: a value is required\n"
  | .repeatedOption => "error: the argument cannot be used multiple times\n"
  | .needlessValue => "error: unexpected value\n"

/-- The exit code of a process. -/
def exitCode : UsageError → UInt32
  | .version | .help _ => 0
  | _ => 2

end UsageError

end Delegability
