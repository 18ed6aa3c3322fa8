/-
# `Delegability.Main` — the program

Reads what a call names, carries the call out, and writes what comes of it.
-/
import Delegability.Command
import Std.Time

namespace Delegability.Main

/-- The system's number for a name that is too long, as errors of files hold it. -/
def tooLong : UInt32 := -36

/-- Why reading failed. -/
def readFault : IO.Error → ReadFault
  | .noFileOrDirectory .. => .notFound
  | .inappropriateType _ 21 _ => .isDirectory
  | .inappropriateType .. => .notDirectory
  | .permissionDenied .. => .denied
  | .invalidArgument _ code detail => if code = tooLong then .tooLong else .other detail
  | e => .other (toString e)

/-- Reads a file. -/
def readFile (path : String) : IO (Except ReadFault String) := do
  if path.contains '\x00' then return .error .nulInPath
  try
    return textOfBytes (← IO.FS.readBinFile path)
  catch e =>
    return .error (readFault e)

/-- Reads standard input to its end. -/
def readStdin : IO (Except ReadFault String) := do
  let stdin ← IO.getStdin
  let mut bytes := ByteArray.empty
  repeat
    let more ← stdin.read 65536
    if more.isEmpty then break
    bytes := bytes ++ more
  return textOfBytes bytes

/-- A random identity in groups of hexadecimal digits; the fixed digits say that
it is random. -/
def identity (bytes : ByteArray) : String :=
  let bits := bytes.toList.map UInt8.toNat
  let marked := (bits.modify 6 fun b => b % 0x10 + 0x40).modify 8 fun b => b % 0x40 + 0x80
  let digits := marked.flatMap fun b => [b / 16, b % 16].map Nat.digitChar
  let group (start size : Nat) := String.ofList ((digits.drop start).take size)
  "-".intercalate [group 0 8, group 8 4, group 12 4, group 16 4, group 20 12]

/-- A stamp with a new identity and the time of now. -/
def newStamp : IO Stamp := do
  let id := identity (← IO.getRandomBytes 16)
  let now ← Std.Time.Timestamp.now
  let utc := Std.Time.DateTime.ofTimestamp now Std.Time.TimeZone.ZoneRules.UTC
  let time := utc.format "uuuu-MM-dd'T'HH:mm:ss.SSSSSSSSS"
  return ⟨id, time ++ "Z", time ++ "+00:00"⟩

/-- The files of a call, read before it is carried out. -/
def readFiles (i : Invocation) : IO (List (String × Except ReadFault String)) :=
  (i.config.toList ++ i.input.toList).mapM fun path => do return (path, ← readFile path)

/-- What a call can read.  A call analyses one case, which makes one entry at
most, so one stamp is enough. -/
def environment (i : Invocation) : IO Environment := do
  let files ← readFiles i
  let stdin ← if i.input.isNone then readStdin else pure (.ok "")
  let stamp ← newStamp
  return ⟨fun path => (files.lookup path).getD (.error .notFound), stdin, fun _ => stamp⟩

/-- Writes both streams. -/
def write (stdout stderr : String) : IO Unit := do
  (← IO.getStderr).putStr stderr
  (← IO.getStdout).putStr stdout
  (← IO.getStdout).flush

end Delegability.Main

open Delegability in
/-- The program. -/
def main (args : List String) : IO UInt32 := do
  match Arguments.parse args with
  | .error e => do
    Main.write e.stdout e.stderr
    return e.exitCode
  | .ok i => do
    let outcome := i.run (← Main.environment i)
    Main.write outcome.stdout outcome.stderr
    return outcome.exitCode
