import DarijaScript.Proofs.Printing.Reports
import DarijaScript.Proofs.Grammar.Acceptance
import DarijaScript.Proofs.Printing.Derived
import DarijaScript.Proofs.Printing.Separated

/-!
# Written programs are read back

The text of a program that was read is cut into the tokens that were written, unless a whole number
is glued to a name that begins with a digit. Those tokens derive a program that differs in positions
only, so it is read back unless the levels of nesting run out.
-/

namespace DarijaScript

open Phrase

variable {text : String} {source : Nat} {program : List Stmt}

/-- A program that was read is well-formed. -/
theorem formed_of_readProgram (read : readProgram text source = .ok program) :
    ∀ stmt ∈ program, stmt.Formed .none := by
  unfold readProgram at read
  split at read
  · cases read
  · next tokens lexed =>
    obtain ⟨body, ending, rfl, ends, inside⟩ := tokenize_ok lexed
    have derived := parse_sound ends (fun token mem => (inside token mem).1) read
    exact derived.formed fun token mem => (inside token mem).2

/-- The text of a well-formed program is refused if a number is glued to a fraction in it. Otherwise
its tokens are read as a program that differs in positions only, or the levels of nesting run out. -/
theorem parse_written (formed : ∀ stmt ∈ program, stmt.Formed .none) (source : Nat) :
    if gluesNumber (programPieces program) then
      ∃ error, tokenize (programText program) = .error error
    else ∃ tokens program', tokenize (programText program) = .ok tokens ∧
      Pairwise Stmt.Alike program program' ∧
      (parse tokens source = .ok program' ∨ ∃ error others,
        parse tokens source = .error (error :: others) ∧ error.isTooDeep = true) := by
  have lexed := (lexes_program formed).tokenize
  split
  · next glues => rwa [if_pos glues] at lexed
  · next alone =>
    rw [if_neg alone] at lexed
    obtain ⟨body, ending, lexed, written⟩ := lexed
    obtain ⟨body', ending', eq, ends, inside⟩ := tokenize_ok lexed
    obtain ⟨rfl, last⟩ := List.append_inj' eq rfl
    obtain rfl : ending = ending' := (List.cons.inj last).1
    obtain ⟨program', alike, derived⟩ := derived_program formed written
    exact ⟨body ++ [ending], program', lexed, alike, parse_complete ends derived⟩

/-- Whatever is read from the text of a program differs from it in positions only. -/
theorem alike_of_read_back {program' : List Stmt} (read : readProgram text source = .ok program)
    {source' : Nat} (again : readProgram (programText program) source' = .ok program') :
    Pairwise Stmt.Alike program program' := by
  have written := parse_written (formed_of_readProgram read) source'
  unfold readProgram at again
  split at written
  · obtain ⟨error, lexed⟩ := written
    rw [lexed] at again
    cases again
  · obtain ⟨tokens, found, lexed, alike, parsed⟩ := written
    rw [lexed] at again
    rcases parsed with parsed | ⟨error, others, parsed, -⟩
    · obtain rfl := Except.ok.inj (parsed.symm.trans again)
      exact alike
    · cases parsed.symm.trans again

/-- **Formatting never changes a program.** If the text of a program that was read is read again, the
same program comes out, positions aside, and a text that was formatted is left as it is. -/
theorem format_keeps_program :
    (∀ (text : String) (source source' : Nat) (program program' : List Stmt),
      readProgram text source = .ok program →
        readProgram (programText program) source' = .ok program' →
          Stmt.sameShapes program program' = true) ∧
      ∀ text formatted formatted' : String, Playground.format text = .ok formatted →
        Playground.format formatted = .ok formatted' → formatted' = formatted := by
  constructor
  · intro text source source' program program' read again
    exact sameStatements_of_alike (alike_of_read_back read again)
  · intro text formatted formatted' first second
    rw [Playground.format_eq] at first second
    split at first
    · next program read =>
      obtain rfl := Except.ok.inj first
      split at second
      · next program' again =>
        obtain rfl := Except.ok.inj second
        exact programText_of_alike (alike_of_read_back read again)
      · cases second
    · cases first

/-- A program whose text needs parentheses and a blank less is kept. -/
theorem format_keeps_construction :
    (∃ program program', readProgram "jdid (f(x)) (y) ;" 0 = .ok program ∧
      readProgram (programText program) 1 = .ok program' ∧
      Stmt.sameShapes program program' = true) ∧
    ∃ formatted formatted', Playground.format "jdid (f(x)) (y) ;" = .ok formatted ∧
      Playground.format formatted = .ok formatted' ∧ formatted' = formatted := by
  have again : (do
      let program ← readProgram "jdid (f(x)) (y) ;" 0
      readProgram (programText program) 1).isOk = true := by
    decide +kernel
  have formatted : Playground.format "jdid (f(x)) (y) ;" = .ok "jdid (f(x))(y);\n" := by
    decide +kernel
  have formatted' : Playground.format "jdid (f(x))(y);\n" = .ok "jdid (f(x))(y);\n" := by
    decide +kernel
  refine ⟨?_, _, _, formatted, formatted', format_keeps_program.2 _ _ _ formatted formatted'⟩
  cases read : readProgram "jdid (f(x)) (y) ;" 0 with
  | error errors => simp [read, bind, Except.bind, Except.isOk, Except.toBool] at again
  | ok program =>
    cases read' : readProgram (programText program) 1 with
    | error errors => simp [read, read', bind, Except.bind, Except.isOk, Except.toBool] at again
    | ok program' =>
      exact ⟨program, program', rfl, read', format_keeps_program.1 _ _ _ _ _ read read'⟩

/-- **The formatter emits a valid program unless it glues a number.** The text of a program that was
read is refused at its characters exactly if a whole number stands directly in front of a point and a
digit. Otherwise the same program is read from its tokens, positions aside, or the first error is
that the levels of nesting ran out. -/
theorem format_valid_iff {text : String} {source : Nat} {program : List Stmt}
    (read : readProgram text source = .ok program) (source' : Nat) :
    ((∃ error, tokenize (programText program) = .error error) ↔
        gluesNumber (programPieces program) = true) ∧
      ∀ tokens, tokenize (programText program) = .ok tokens →
        (∃ program', parse tokens source' = .ok program' ∧ Stmt.sameShapes program program' = true) ∨
          ∃ error others, parse tokens source' = .error (error :: others) ∧
            error.isTooDeep = true := by
  have written := parse_written (formed_of_readProgram read) source'
  split at written
  · next glues =>
    refine ⟨⟨fun _ => glues, fun _ => written⟩, fun tokens lexed => ?_⟩
    obtain ⟨error, refused⟩ := written
    cases refused.symm.trans lexed
  · next alone =>
    obtain ⟨tokens, program', lexed, alike, parsed⟩ := written
    refine ⟨⟨fun ⟨error, refused⟩ => ?_, fun glues => absurd glues alone⟩, fun tokens' lexed' => ?_⟩
    · cases refused.symm.trans lexed
    · obtain rfl := Except.ok.inj (lexed.symm.trans lexed')
      exact parsed.imp_left fun parsed => ⟨program', parsed, sameStatements_of_alike alike⟩

/-- A whole number that owns a member with a digit in front is written so that it is refused. -/
theorem format_refused_glued : ∃ program, readProgram "5 .7ala;" 0 = .ok program ∧
    gluesNumber (programPieces program) = true ∧
    ∃ error, tokenize (programText program) = .error error := by
  have glued : (readProgram "5 .7ala;" 0).toOption.any (gluesNumber <| programPieces ·) = true := by
    decide +kernel
  cases read : readProgram "5 .7ala;" 0 with
  | error errors => simp [read, Except.toOption] at glued
  | ok program =>
    have glued : gluesNumber (programPieces program) = true := by
      simpa [read, Except.toOption] using glued
    exact ⟨program, rfl, glued, (format_valid_iff read 0).1.mpr glued⟩

end DarijaScript
