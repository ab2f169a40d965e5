/-!
# Positions and diagnostics

Where something stands in a source text, and the one form in which every failure is reported.
-/

namespace DarijaScript

/-- Line and column, both counted from one in characters; line zero means that the place is not
known. -/
structure Position where
  line : Nat
  column : Nat
  deriving Repr, DecidableEq, Inhabited

/-- The place that is not known. -/
def Position.unknown : Position := ⟨0, 0⟩

/-- The beginning of a text. -/
def Position.start : Position := ⟨1, 1⟩

/-- The position behind a character that stands here. -/
def Position.after (p : Position) (c : Char) : Position :=
  if c = '\n' then ⟨p.line + 1, 1⟩ else ⟨p.line, p.column + 1⟩

/-- The stage at which a program failed. -/
inductive Stage where
  | lexing
  | parsing
  | running
  deriving Repr, DecidableEq

/-- The name of a stage in messages. -/
def Stage.name : Stage → String
  | .lexing => "Lex"
  | .parsing => "Parse"
  | .running => "Runtime"

/-- The report of a failure: the place is left out when it is not known. -/
def Stage.report (stage : Stage) (position : Position) (message : String) : String :=
  if position.line = 0 then stage.name ++ " error: " ++ message
  else
    stage.name ++ " error at line " ++ position.line.repr ++ ", column " ++ position.column.repr ++
      ": " ++ message

end DarijaScript
