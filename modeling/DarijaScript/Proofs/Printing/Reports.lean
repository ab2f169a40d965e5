import Mathlib
import DarijaScript.Playground
import DarijaScript.Proofs.Lexing.Follow

/-!
# Reports of errors

A report begins with the name of a stage and ends with what it tells, so it neither begins nor ends with
a blank, whatever the text of the token is that it tells of. Hence reports that are each ended by a line
break and then trimmed are the reports with a line break between them.
-/

namespace DarijaScript

open Text

namespace Text

/-- The text begins and ends with characters that are not blank. -/
structure Solid (text : List Char) : Prop where
  begins : text.head?.any (!isBlank ·) = true
  ends : text.getLast?.any (!isBlank ·) = true

variable {front back : List Char}

theorem any_head?_append {p : Char → Bool} (h : front.head?.any p = true) (back : List Char) :
    (front ++ back).head?.any p = true := by
  cases front with
  | nil => cases h
  | cons => exact h

theorem any_getLast?_append {p : Char → Bool} (h : back.getLast?.any p = true)
    (front : List Char) : (front ++ back).getLast?.any p = true := by
  cases last : back.getLast? with
  | none => simp [last] at h
  | some c => simpa [List.getLast?_append, last] using h

theorem Solid.append (h : Solid front) (h' : Solid back) (between : List Char) :
    Solid (front ++ (between ++ back)) where
  begins := any_head?_append h.begins _
  ends := any_getLast?_append (any_getLast?_append h'.ends between) front

/-- Blanks behind a text that does not end with one are trimmed, and nothing else. -/
theorem Solid.trim_append {text blanks : List Char} (h : Solid text)
    (all : ∀ c ∈ blanks, isBlank c = true) : trim (text ++ blanks) = text := by
  have begins : (text ++ blanks).head?.any isBlank = false := by
    have := any_head?_append h.begins blanks
    cases eq : (text ++ blanks).head? <;> simp_all
  have ends : text.reverse.head?.any isBlank = false := by
    have := h.ends
    rw [List.head?_reverse]
    cases eq : text.getLast? <;> simp_all
  have dropped : (text ++ blanks).dropWhile isBlank = text ++ blanks :=
    dropWhile_run (List.forall_mem_nil _) begins
  have all : ∀ c ∈ blanks.reverse, isBlank c = true := by simpa using all
  rw [trim, dropped, List.reverse_append, dropWhile_run all ends, List.reverse_reverse]

end Text

/-! ### One report -/

theorem getLast?_repr (n : Nat) : n.repr.toList.getLast?.any (!isBlank ·) = true := by
  have digits : n.repr.toList = Nat.toDigits 10 n := String.toList_ofList
  have nonempty : Nat.toDigits 10 n ≠ [] := Nat.toDigits_ne_nil
  have digit := Nat.isDigit_of_mem_toDigits (by decide) (by decide) (List.getLast_mem nonempty)
  rw [digits, List.getLast?_eq_some_getLast nonempty]
  simpa using isBlank_of_isWordChar (isWordChar_of_isDigit digit)

/-- What is told in quotes at the end does not end with a blank. -/
theorem getLast?_quoted (text : String) :
    (text ++ "`").toList.getLast?.any (!isBlank ·) = true := by
  rw [String.toList_append]
  exact any_getLast?_append (by cbv) _

theorem LexicalIssue.ends_message (issue : LexicalIssue) :
    issue.message.toList.getLast?.any (!isBlank ·) = true := by
  cases issue with
  | unterminatedString | unterminatedComment => unfold message; cbv
  | unexpectedCharacter | invalidNumber => exact getLast?_quoted _

theorem GrammarIssue.ends_message (issue : GrammarIssue) :
    issue.message.toList.getLast?.any (!isBlank ·) = true := by
  cases issue with
  | tooManyParameters count | tooManyArguments count =>
    unfold message
    rw [String.toList_append]
    exact any_getLast?_append (getLast?_repr count) _
  | duplicateDefault | breakOutsideLoop | continueOutsideLoop | returnOutsideFunction =>
    unfold message
    cbv
  | _ => exact getLast?_quoted _

theorem SyntaxError.ends_message (error : SyntaxError) :
    error.message.toList.getLast?.any (!isBlank ·) = true := by
  unfold message
  cases error.issue with
  | lexical issue => exact issue.ends_message
  | grammatical issue => exact issue.ends_message

theorem Stage.begins_name (stage : Stage) : stage.name.toList.head?.any (!isBlank ·) = true := by
  cases stage <;> cbv

/-- Neither end of a report is blank, whatever it tells. -/
theorem SyntaxError.solid_report (error : SyntaxError) : Solid error.report.toList := by
  have begins := error.stage.begins_name
  have ends := error.ends_message
  unfold report Stage.report
  split
  · rw [String.toList_append, String.toList_append, List.append_assoc]
    exact ⟨any_head?_append begins _, any_getLast?_append (any_getLast?_append ends _) _⟩
  · iterate 6 rw [String.toList_append]
    constructor
    · iterate 5 rw [List.append_assoc]
      exact any_head?_append begins _
    · exact any_getLast?_append ends _

/-! ### All reports -/

/-- Reports that are each ended by a line break. -/
theorem foldl_report {errors : List SyntaxError} (some : errors ≠ []) :
    errors.foldl (fun text error => text ++ error.report ++ "\n") "" =
      "\n".intercalate (errors.map SyntaxError.report) ++ "\n" := by
  induction errors using List.reverseRecOn with
  | nil => exact absurd rfl some
  | append_singleton errors error ih =>
    rw [List.foldl_concat, List.map_append, List.map_singleton]
    by_cases none : errors = []
    · rw [none]
      simp
    · rw [ih none, String.intercalate_append_of_ne_nil (by simpa using none) (by simp)]
      simp

theorem solid_intercalate {errors : List SyntaxError} (some : errors ≠ []) :
    Solid ("\n".intercalate (errors.map SyntaxError.report)).toList := by
  induction errors with
  | nil => exact absurd rfl some
  | cons error errors ih =>
    by_cases none : errors = []
    · rw [none, List.map_singleton, String.intercalate_singleton]
      exact error.solid_report
    · rw [List.map_cons, String.intercalate_cons_of_ne_nil (by simpa using none),
        String.toList_append, String.toList_append, List.append_assoc]
      exact error.solid_report.append (ih none) _

/-- Trimming takes off the last line break and nothing of the reports. -/
theorem Playground.reports_eq (errors : List SyntaxError) :
    reports errors = "\n".intercalate (errors.map SyntaxError.report) := by
  by_cases none : errors = []
  · rw [none]
    cbv
  · have newline : ∀ c ∈ "\n".toList, isBlank c = true := by simp; decide
    unfold reports
    dsimp only
    rw [foldl_report none, String.toList_append, (solid_intercalate none).trim_append newline,
      String.ofList_toList]

/-! ### Texts that are refused -/

/-- The text is no program: these are the fault of its characters, or all those of its tokens. -/
def Refused (source : String) (errors : List SyntaxError) : Prop :=
  (∃ error, tokenize source = .error error ∧ errors = [error]) ∨
    ∃ tokens, tokenize source = .ok tokens ∧ parse tokens 0 = .error errors

/-- Tokens are not refused without an error. -/
theorem ne_nil_of_parse {tokens : List Token} {source : Nat} {errors : List SyntaxError}
    (h : parse tokens source = .error errors) : errors ≠ [] := by
  unfold parse at h
  split at h
  · next stream _ =>
    split at h
    · cases h
    · next some =>
      obtain rfl := Except.error.inj h
      simpa using some
  · obtain rfl := Except.error.inj h
    simp

theorem Refused.ne_nil {source : String} {errors : List SyntaxError} (h : Refused source errors) :
    errors ≠ [] := by
  rcases h with ⟨error, -, rfl⟩ | ⟨tokens, -, refused⟩
  · exact List.cons_ne_nil error []
  · exact ne_nil_of_parse refused

theorem readProgram_eq_error_iff {source : String} {errors : List SyntaxError} :
    readProgram source 0 = .error errors ↔ Refused source errors := by
  unfold readProgram Refused
  cases tokenize source <;> simp [eq_comm]

/-- The formatter prints what is read, and reports errors as every failure is reported. -/
theorem Playground.format_eq (source : String) :
    Playground.format source =
      match readProgram source 0 with
      | .ok program => .ok (programText program)
      | .error errors => .error ("\n".intercalate (errors.map SyntaxError.report)) := by
  unfold Playground.format readProgram
  cases tokenize source with
  | error error => simp
  | ok tokens =>
    dsimp only
    cases parse tokens 0 with
    | error errors => exact congrArg Except.error (Playground.reports_eq errors)
    | ok program => rfl

theorem Playground.format_eq_error_iff {source text : String} :
    Playground.format source = .error text ↔ ∃ errors, readProgram source 0 = .error errors ∧
      text = "\n".intercalate (errors.map SyntaxError.report) := by
  rw [Playground.format_eq]
  cases readProgram source 0 <;> simp [eq_comm]

/-- A run fails with errors of the text exactly if the text cannot be read, within every bound. -/
theorem run?_unreadable_iff {fuel : Nat} {source : String} {host : Host} {outcome : Outcome}
    {errors : List SyntaxError} :
    run? fuel source host = some outcome ∧ outcome.failure = some (.unreadable errors) ↔
      readProgram source 0 = .error errors ∧
        outcome = ⟨#[], #[], Store.initial, some (.unreadable errors)⟩ := by
  unfold run?
  cases readProgram source 0 with
  | error found =>
    constructor
    · rintro ⟨made, failed⟩
      cases made
      cases failed
      exact ⟨rfl, rfl⟩
    · rintro ⟨made, rfl⟩
      cases made
      exact ⟨rfl, rfl⟩
  | ok program =>
    refine ⟨fun ⟨made, failed⟩ => ?_, nofun⟩
    dsimp only at made
    split at made <;> cases made <;> cases failed

/-- Reports that go over one line each are the lines of the text. -/
theorem lines_intercalate {reports : List String} (some : reports ≠ [])
    (single : ∀ report ∈ reports, '\n' ∉ report.toList) :
    ("\n".intercalate reports).toList.splitOn '\n' = reports.map String.toList := by
  rw [String.toList_intercalate]
  exact List.splitOn_intercalate '\n' (by simpa using single) (by simpa using some)

/-- **The formatter refuses the texts that a run cannot read, with the same report.** On every host and
within every bound, a text is refused by the formatter exactly if its run ends with errors of the text.
These are the fault of its characters or all those of its tokens; the formatter answers with the report
of the failure, which is that of every error in its order with a line break between them, so they are
the lines where no token in them goes over several; and the run has printed nothing and not asked the
host. -/
theorem format_refuses_unreadable (source : String) (host : Host) (fuel : Nat) :
    ((∃ text, Playground.format source = .error text) ↔
      ∃ outcome errors, run? fuel source host = some outcome ∧
        outcome.failure = some (.unreadable errors)) ∧
    ∀ outcome errors, run? fuel source host = some outcome →
      outcome.failure = some (.unreadable errors) →
        Refused source errors ∧ errors ≠ [] ∧
        ∃ text, Playground.format source = .error text ∧
          text = (Failure.unreadable errors).report outcome.store ∧
          text = "\n".intercalate (errors.map SyntaxError.report) ∧
          ((∀ error ∈ errors, '\n' ∉ error.report.toList) →
            text.toList.splitOn '\n' = errors.map (·.report.toList)) ∧
          outcome.output = #[] ∧ outcome.log = #[] := by
  constructor
  · constructor
    · rintro ⟨text, refused⟩
      obtain ⟨errors, read, -⟩ := Playground.format_eq_error_iff.mp refused
      exact ⟨_, errors, run?_unreadable_iff.mpr ⟨read, rfl⟩⟩
    · rintro ⟨outcome, errors, ran⟩
      obtain ⟨read, -⟩ := run?_unreadable_iff.mp ran
      exact ⟨_, Playground.format_eq_error_iff.mpr ⟨errors, read, rfl⟩⟩
  · intro outcome errors ran failed
    obtain ⟨read, rfl⟩ := run?_unreadable_iff.mp ⟨ran, failed⟩
    have refused := readProgram_eq_error_iff.mp read
    have some := refused.ne_nil
    refine ⟨refused, some, _,
      Playground.format_eq_error_iff.mpr ⟨errors, read, rfl⟩, rfl, rfl, fun single => ?_, rfl, rfl⟩
    have nonempty : errors.map SyntaxError.report ≠ [] := by simpa using some
    have lines := lines_intercalate nonempty (by simpa using single)
    rwa [List.map_map] at lines

/-- Two errors, one of which is told at a string that goes over two lines. -/
theorem format_refuses_unreadable_twice : ∃ outcome errors,
    (∃ text, Playground.format "wa9f; x \"1\\n2\";" = .error text) ∧
    run? 0 "wa9f; x \"1\\n2\";" (.scripted [] [] [] []) = some outcome ∧
    outcome.failure = some (.unreadable errors) ∧ errors.length = 2 ∧
    Playground.format "wa9f; x \"1\\n2\";" =
      .error ((Failure.unreadable errors).report outcome.store) ∧
    (Failure.unreadable errors).report outcome.store =
      "Parse error at line 1, column 1: `wa9f` outside of a loop or `bdl3la`\n" ++
        "Parse error at line 1, column 9: expected `;`, found `\"1\n2\"`" ∧
    outcome.output = #[] ∧ outcome.log = #[] := by
  have refused : (match readProgram "wa9f; x \"1\\n2\";" 0 with
      | .ok _ => false
      | .error errors => errors.length == 2 && "\n".intercalate (errors.map SyntaxError.report) ==
        "Parse error at line 1, column 1: `wa9f` outside of a loop or `bdl3la`\n" ++
          "Parse error at line 1, column 9: expected `;`, found `\"1\n2\"`") = true := by
    decide +kernel
  split at refused
  · cases refused
  · next errors read =>
    rw [Bool.and_eq_true, beq_iff_eq, beq_iff_eq] at refused
    have ran : run? 0 "wa9f; x \"1\\n2\";" (.scripted [] [] [] []) = some _ :=
      (run?_unreadable_iff.mpr ⟨read, rfl⟩).1
    have answers := format_refuses_unreadable "wa9f; x \"1\\n2\";" (.scripted [] [] [] []) 0
    obtain ⟨-, -, text, formatted, rfl, -, -, output, log⟩ := answers.2 _ errors ran rfl
    exact ⟨_, errors, ⟨_, formatted⟩, ran, rfl, refused.1, formatted, refused.2, output, log⟩

end DarijaScript
