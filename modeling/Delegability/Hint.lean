/-
# `Delegability.Hint` — what the author of a formula is told

A hint is a message under a key.  The messages are templates of one locale; a
column's name is escaped before it is put in, because the message may be filled
again.
-/
import Delegability.Template

namespace Delegability

/-- The key of a message. -/
abbrev HintKey := String

namespace HintKey

/-- The enclosing function is not supported here. -/
def suggestRemoteExecution : HintKey := "SuggestRemoteExecutionHint"

/-- A column lacks support. -/
def notSupportedByColumn : HintKey :=
  "OpNotSupportedByColumnSuggestionMessage_OpNotSupportedByColumn"

/-- The source lacks an operation. -/
def notSupportedByService : HintKey :=
  "OpNotSupportedByServiceSuggestionMessage_OpNotSupportedByService"

/-- The messages, by key. -/
def templates : List (HintKey × String) :=
  [(suggestRemoteExecution,
    "Delegation warning. The highlighted part of this formula might not work correctly on large data sets. The \"{0}\" operation is not supported by this data source."),
   (notSupportedByColumn,
    "Delegation warning. The highlighted part of this formula might not work correctly with column \"{0}\" on large data sets."),
   (notSupportedByService,
    "Delegation warning. The \"{0}\" operation is not supported by this data source and might not work correctly on large data sets.")]

/-- The message of a key. -/
def template? (k : HintKey) : Option String := templates.lookup k

end HintKey

/-- The locale of the messages. -/
def defaultLocale : String := "en-US"

/-- Whether there are messages for a locale; large and small letters count alike. -/
def isSupportedLocale (s : String) : Bool :=
  s.toList.map Char.toLower == defaultLocale.toList.map Char.toLower

/-- A message for the author of a formula. -/
structure Hint where
  key : HintKey
  message : String
deriving DecidableEq, Inhabited

namespace Hint

/-- The hint of a key with its holes filled; an unknown key is its own message. -/
def ofKey (k : HintKey) (args : List String) : Hint where
  key := k
  message :=
    match k.template? with
    | some t => Template.fill t args
    | none => k

/-- The enclosing function is not supported here. -/
def suggestRemoteExecution (function : String) : Hint :=
  ofKey .suggestRemoteExecution [function]

/-- A column lacks support. -/
def notSupportedByColumn (column : String) : Hint :=
  ofKey .notSupportedByColumn [Template.escape column]

/-- The source lacks an operation. -/
def notSupportedByService (operation : String) : Hint :=
  ofKey .notSupportedByService [operation]

end Hint

end Delegability
