import DarijaScript.Program

/-!
# The command line

One argument names a script to run. Without arguments every line of the input is a program of its
own. Output goes to one stream and failures to another, and the exit code tells what went wrong.
-/

namespace DarijaScript.CommandLine

/-- What a part of a session writes. -/
structure Transcript where
  output : String
  errors : String
  deriving Repr, DecidableEq

/-- The exit code of a session that went well. -/
def exitSuccess : UInt8 := 0

/-- The exit code when there are too many arguments. -/
def exitUsage : UInt8 := 64

/-- The exit code of a script that is no program. -/
def exitData : UInt8 := 65

/-- The exit code of a script that fails when it runs. -/
def exitSoftware : UInt8 := 70

/-- The exit code when a script or the input cannot be read. -/
def exitIO : UInt8 := 74

/-- What is written when there are too many arguments. -/
def usage : String := "Usage: darija [script]\n"

/-- What is written in front of every line that is read. -/
def greeting : String := ">>> "

/-- The reason why bytes are no text. -/
def invalidEncoding : String := "stream did not contain valid UTF-8"

/-- What is written when a script cannot be read. -/
def unreadableScript (path reason : String) : String :=
  "Failed to read " ++ path ++ ": " ++ reason ++ "\n"

/-- What is written when the input cannot be read. -/
def unreadableLine (reason : String) : String := "Failed to read line: " ++ reason ++ "\n"

/-- The output and the failure of a run, each line ended. -/
def transcript (outcome : Outcome) : Transcript where
  output := outcome.output.foldl (fun text line => text ++ line ++ "\n") ""
  errors :=
    match outcome.failure with
    | none => ""
    | some failure => failure.report outcome.store ++ "\n"

/-- The exit code that tells the outcome of a script. -/
def exitCode (outcome : Outcome) : UInt8 :=
  match outcome.failure with
  | none => exitSuccess
  | some failure =>
    match failure.stage with
    | .lexing | .parsing => exitData
    | .running => exitSoftware

/-- Runs a script, the content of which could be read or not for a reason. -/
def runScript (path : String) (content : Except String ByteArray) (host : Host) :
    Transcript × UInt8 :=
  match content with
  | .error reason => (⟨"", unreadableScript path reason⟩, exitIO)
  | .ok bytes =>
    match String.fromUTF8? bytes with
    | none => (⟨"", unreadableScript path invalidEncoding⟩, exitIO)
    | some source =>
      let outcome := run source host
      (transcript outcome, exitCode outcome)

/-- Runs a line of the input; an empty one is its end. The exit code is there when the session ends
with this line. -/
def runLine (line : ByteArray) (host : Host) : Transcript × Option UInt8 :=
  if line.isEmpty then (⟨"", ""⟩, some exitSuccess)
  else
    match String.fromUTF8? line with
    | none => (⟨"", unreadableLine invalidEncoding⟩, some exitIO)
    | some source => (transcript (run source host), none)

/-- The lines of an input, each with its end. -/
def splitLines : (line : List UInt8) → List UInt8 → List (List UInt8)
  | [], [] => []
  | line, [] => [line.reverse]
  | line, byte :: rest =>
    if byte = 10 then (byte :: line).reverse :: splitLines [] rest
    else splitLines (byte :: line) rest

/-- Runs the lines of an input up to its end or the first one that cannot be read. -/
def runLines (host : Host) (written : Transcript) : List (List UInt8) → Transcript × UInt8
  | [] => (⟨written.output ++ greeting, written.errors⟩, exitSuccess)
  | line :: rest =>
    let (more, exit) := runLine ⟨line.toArray⟩ host
    let written : Transcript :=
      ⟨written.output ++ greeting ++ more.output, written.errors ++ more.errors⟩
    match exit with
    | some code => (written, code)
    | none => runLines host written rest

/-- A whole session: the arguments, the contents of files and the input give what is written to the
two streams and the exit code. -/
def session (args : List String) (read : String → Except String ByteArray) (input : List UInt8)
    (host : Host) : Transcript × UInt8 :=
  match args with
  | [] => runLines host ⟨"", ""⟩ (splitLines [] input)
  | [path] => runScript path (read path) host
  | _ => (⟨"", usage⟩, exitUsage)

end DarijaScript.CommandLine
