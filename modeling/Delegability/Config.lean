/-
# `Delegability.Config` — how the program is set up

A configuration says what may be delegated beyond the default, which log records
are written, in which locale the messages are, and where telemetry goes.  It is
read from a document in which every field may be left out.  A configuration that
exists has a severity and a locale that can be used.
-/
import Delegability.Files
import Delegability.Format.Features
import Delegability.Telemetry

namespace Delegability

open Json

/-- Where telemetry goes. -/
inductive TelemetryMode where
  /-- It is kept and written with the outcome. -/
  | memory
  /-- It is written to the log. -/
  | log
  | off
deriving DecidableEq, Inhabited

namespace TelemetryMode

/-- The modes by name. -/
def named : List (String × TelemetryMode) := [("memory", .memory), ("log", .log), ("off", .off)]

/-- The name of a mode. -/
def name : TelemetryMode → String
  | .memory => "memory"
  | .log => "log"
  | .off => "off"

/-- The sinks of a mode.  Rejections are counted in every mode. -/
def sinks : TelemetryMode → List Sink
  | .memory => [.metrics, .memory]
  | .log => [.metrics, .log Sink.defaultSeverity]
  | .off => [.metrics]

end TelemetryMode

/-- Why there is no configuration. -/
inductive ConfigError where
  | unreadable (path : String) (why : ReadFault)
  | malformed (why : DocumentFault)
  /-- Not the name of a severity. -/
  | logLevel (level : String)
  | locale (locale : String)

namespace ConfigError

/-- The code of an error. -/
def code : ConfigError → String
  | .unreadable .. => "DELEG_CONFIG_READ"
  | .malformed _ => "DELEG_CONFIG_PARSE"
  | .logLevel _ => "DELEG_CONFIG_LOG_LEVEL"
  | .locale _ => "DELEG_CONFIG_LOCALE"

/-- The message of an error. -/
def message : ConfigError → String
  | .unreadable path why => "Cannot read config " ++ path ++ ": " ++ why.message
  | .malformed why => "Invalid config JSON: " ++ why.text
  | .logLevel l => "Invalid log_level '" ++ l ++ "': must be trace, info, warn, error or fatal"
  | .locale l => "Unsupported locale '" ++ l ++ "'"

end ConfigError

/-- How the program is set up. -/
structure Config where
  /-- What may be delegated beyond the default; a case may add to it. -/
  features : Features := {}
  /-- The least severity of log records that are written. -/
  severity : Severity := .warn
  locale : String := defaultLocale
  telemetry : TelemetryMode := .memory
deriving DecidableEq, Inhabited

namespace Config

/-- A configuration, as far as it is read. -/
structure Draft where
  features : Option Features := none
  logLevel : Option String := none
  locale : Option String := none
  telemetry : Option TelemetryMode := none

/-- The fields of a configuration. -/
def slots : List (Slot Refusal Draft) :=
  [slot "features" (·.features) (fun a s => { s with features := some a }) Features.decode,
   slot "log_level" (·.logLevel) (fun a s => { s with logLevel := some a }) decodeText,
   slot "locale" (·.locale) (fun a s => { s with locale := some a }) decodeText,
   slot "telemetry" (·.telemetry) (fun a s => { s with telemetry := some a })
     (decodeName .streamed TelemetryMode.named)]

/-- What a document says about the configuration. -/
def Draft.decode : Reads Draft := decodeRecord slots {} fun _ s => .ok s

/-- The severity of a level that may be left out. -/
def severityOf : Option String → Except ConfigError Severity
  | none => .ok ({} : Config).severity
  | some l =>
    match Severity.ofName? l with
    | some s => .ok s
    | none => .error (.logLevel l)

/-- The locale that may be left out. -/
def localeOf : Option String → Except ConfigError String
  | none => .ok defaultLocale
  | some l => if isSupportedLocale l then .ok l else .error (.locale l)

/-- A complete configuration; the level is checked before the locale. -/
def ofDraft (d : Draft) : Except ConfigError Config := do
  let severity ← severityOf d.logLevel
  let locale ← localeOf d.locale
  return ⟨d.features.getD {}, severity, locale, d.telemetry.getD .memory⟩

/-- The configuration of a text. -/
def parse (text : String) : Except ConfigError Config :=
  match decode Draft.decode text with
  | .ok d => ofDraft d
  | .error e => .error (.malformed e)

/-- The configuration of a file. -/
def load (path : String) : Except ReadFault String → Except ConfigError Config
  | .ok text => parse text
  | .error why => .error (.unreadable path why)

/-- A configuration as a value. -/
def value (c : Config) : Value :=
  .obj [("features", c.features.value), ("locale", .str c.locale),
    ("log_level", .str c.severity.name), ("telemetry", .str c.telemetry.name)]

end Config

end Delegability
