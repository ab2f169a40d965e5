import DarijaScript.Program

/-!
# The playground

What the page for trying programs out shows.
-/

namespace DarijaScript.Playground

/-- The name and version that the page greets with. -/
def banner : String := "DarijaScript v0.1.0"

/-- The lines that a program prints, followed by the report of its failure if it fails. -/
def execute (source : String) (host : Host) : String :=
  let outcome := run source host
  let failure := outcome.failure.toList.map (·.report outcome.store)
  "\n".intercalate (outcome.output.toList ++ failure)

/-- The reports of errors, each with the end of its line, without the blanks around them all. -/
def reports (errors : List SyntaxError) : String :=
  let lines := errors.foldl (fun text error => text ++ error.report ++ "\n") ""
  String.ofList (Text.trim lines.toList)

/-- A source text in the layout of the printer, or the reports of all its errors. -/
def format (source : String) : Except String String :=
  match tokenize source with
  | .error error => .error error.report
  | .ok tokens =>
    match parse tokens 0 with
    | .error errors => .error (reports errors)
    | .ok program => .ok (programText program)

end DarijaScript.Playground
