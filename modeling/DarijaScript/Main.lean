import DarijaScript.CommandLine
import Std.Time.DateTime.Timestamp

/-!
# The program

The command line over real files, streams, time and chance.
-/

open DarijaScript

/-- A host that asks nobody. Its clock starts at the present time and moves on by a millisecond with
every call, so a program that waits for a later time goes on in the end. -/
def systemHost : IO Host := do
  let began ← Std.Time.Timestamp.now
  let seed ← IO.rand 0 (2 ^ 31)
  let chance (calls : Nat) : Float :=
    let (value, _) := randNat (mkStdGen (seed + calls)) 0 (2 ^ 53 - 1)
    Float.ofNat value / Float.ofNat (2 ^ 53)
  let time (calls : Nat) : Float :=
    Decimal.ofInt (began.toMillisecondsSinceUnixEpoch.toInt + calls)
  pure (Host.silent (fun log => time log.size) (fun log => chance log.size))

/-- The system's wordings of the errors that files may lead to, by their numbers. -/
def systemWordings : List (Nat × String) :=
  [(2, "No such file or directory"), (5, "Input/output error"), (13, "Permission denied"),
    (20, "Not a directory"), (21, "Is a directory"), (36, "File name too long"),
    (40, "Too many levels of symbolic links")]

/-- An error by its number, which some calls give with a minus sign, and in the system's words. -/
def systemReason (code : UInt32) (details : String) : String :=
  let number := code.toInt32.toInt.natAbs
  (systemWordings.lookup number).getD details ++ " (os error " ++ number.repr ++ ")"

/-- Why a file cannot be read. -/
def reasonOf (error : IO.Error) : String :=
  match error with
  | .noFileOrDirectory _ code details | .inappropriateType _ code details
  | .permissionDenied _ code details | .invalidArgument _ code details
  | .hardwareFault code details | .otherError code details => systemReason code details
  | other => toString other

/-- The content of a file, or the reason why it cannot be read. -/
def readScript (path : String) : IO (Except String ByteArray) := do
  try
    let bytes ← IO.FS.readBinFile path
    pure (.ok bytes)
  catch error => pure (.error (reasonOf error))

/-- The bytes up to the end of a line or of the input. -/
partial def readLineBytes (input : IO.FS.Stream) (line : ByteArray) : IO ByteArray := do
  let byte ← input.read 1
  if byte.isEmpty then pure line
  else
    let line := line ++ byte
    if byte.toList = [10] then pure line else readLineBytes input line

/-- A line of the input, or the reason why it cannot be read. -/
def readLine (input : IO.FS.Stream) : IO (Except String ByteArray) := do
  try
    let line ← readLineBytes input ByteArray.empty
    pure (.ok line)
  catch error => pure (.error (reasonOf error))

/-- Runs lines until the session ends. -/
partial def interact (input output errors : IO.FS.Stream) : IO UInt32 := do
  output.putStr CommandLine.greeting
  output.flush
  match ← readLine input with
  | .error reason =>
    errors.putStr (CommandLine.unreadableLine reason)
    pure CommandLine.exitIO.toUInt32
  | .ok line =>
    let (written, exit) := CommandLine.runLine line (← systemHost)
    output.putStr written.output
    errors.putStr written.errors
    match exit with
    | some code => pure code.toUInt32
    | none => interact input output errors

def main (args : List String) : IO UInt32 := do
  let output ← IO.getStdout
  let errors ← IO.getStderr
  match args with
  | [] => interact (← IO.getStdin) output errors
  | [path] =>
    let content ← readScript path
    let (written, code) := CommandLine.runScript path content (← systemHost)
    output.putStr written.output
    errors.putStr written.errors
    pure code.toUInt32
  | _ =>
    errors.putStr CommandLine.usage
    pure CommandLine.exitUsage.toUInt32
