/-
# `Delegability.Files` — why a file could not be read

A call names its configuration and its case by paths.  What a path leads to is the file system's
affair; here are the faults that come of it, and their messages.  Bytes that are no text are a
fault of the file like the others.
-/

namespace Delegability

/-- Why a file could not be read. -/
inductive ReadFault where
  | notFound
  /-- The path goes on behind a file. -/
  | notDirectory
  | isDirectory
  /-- The path, or a name in it, is longer than a file system takes. -/
  | tooLong
  | denied
  /-- The path holds a NUL, which no file system takes. -/
  | nulInPath
  /-- The bytes of the file are not text. -/
  | notText
  | other (detail : String)
deriving DecidableEq

/-- The message for a file that could not be read. -/
def ReadFault.message : ReadFault → String
  | .notFound => "No such file or directory (os error 2)"
  | .notDirectory => "Not a directory (os error 20)"
  | .isDirectory => "Is a directory (os error 21)"
  | .tooLong => "File name too long (os error 36)"
  | .denied => "Permission denied (os error 13)"
  | .nulInPath => "file name contained an unexpected NUL byte"
  | .notText => "stream did not contain valid UTF-8"
  | .other detail => detail

/-- The text of bytes. -/
def textOfBytes (bytes : ByteArray) : Except ReadFault String :=
  match String.fromUTF8? bytes with
  | some s => .ok s
  | none => .error .notText

end Delegability
