import DarijaScript.Program
import DarijaScript.Proofs.Evaluation.Moments
import DarijaScript.Proofs.Syntax.Vocabulary

/-!
# Programs that do not ask the host

The host is asked by five functions of the outermost scope only, and a program comes to a function of
that scope by its name. So two runs of a text without these names are in step, whatever their hosts
answer.
-/

namespace DarijaScript

/-- The names of the functions that ask the host. -/
def hostNames : List String := ["sowel", "t2kd", "daba", "Tarikh", "tsadof"]

theorem Builtin.name_mem_hostNames {b : Builtin} (asks : b.asks = true) : b.name ∈ hostNames := by
  cases b
  case prompt | confirm | now | date | random => decide
  all_goals cases asks

/-- Two hosts that trees without the names of their functions are executed on. -/
def Setting.between (host other : Host) : Setting where
  check := Node.Spelled (· ∉ hostNames)
  limits := .standard
  host := host
  other := other
  tracked := False
  strict := False
  follows := id
  alone := False.elim
  hosts _ asks unnamed := absurd (Builtin.name_mem_hostNames asks) unnamed
  steady := False.elim
  named := False.elim

/-- A program without the names of the functions that ask the host comes to the same end on every
host. -/
theorem executeAll_other_host {program : List Stmt}
    (unnamed : ∀ stmt ∈ program, stmt.Meets (Node.Spelled (· ∉ hostNames))) (fuel : Nat)
    (host other : Host) :
    (Setting.between host other).Ends ⟨0, 0, [] ++ constantsOf program, true⟩ (fun _ => True)
      (Machine.initial host) (Machine.executeAll fuel program (Machine.initial host))
      (Machine.executeAll fuel program (Machine.initial other)) := by
  have agree := (Setting.between host other).agree_interpreter fuel 0 0
  have run := Setting.InStep.program (c := ⟨0, 0, [], true⟩) agree unnamed
    (List.subset_append_left _ _) (List.subset_append_right _ _) False.elim
  exact run.joint _ (Setting.fits_initial rfl rfl)

/-- What is left of a machine at the end of a program, if the program ended. -/
def Outcome.ofEnding? : Ending Unit → Option Outcome
  | .ok () machine => some (.ofMachine machine none)
  | .error (.exception exception) machine =>
    some (.ofMachine machine (some (.uncaught exception)))
  | .error .outOfFuel _ => none

theorem run?_of_read {text : String} {program : List Stmt} (read : readProgram text 0 = .ok program)
    (fuel : Nat) (host : Host) :
    run? fuel text host =
      Outcome.ofEnding? (Machine.executeAll fuel program (Machine.initial host)) := by
  simp only [run?, read]
  rfl

/-- Runs in step on two hosts leave the same behind. -/
theorem Setting.Ends.ofEnding?_eq {S : Setting} {c : Context} {good : Unit → Prop}
    {machine : Machine} {ending other : Ending Unit} (h : S.Ends c good machine ending other)
    (loose : ¬ S.strict) : Outcome.ofEnding? ending = Outcome.ofEnding? other := by
  match ending with
  | .ok _ _ =>
    rw [h.1]
    rfl
  | .error (.exception _) _ =>
    rw [h.1]
    rfl
  | .error .outOfFuel _ =>
    rw [(h.1 loose).1]
    rfl

/-- **What a host answers makes no difference to a program that does not name the functions that ask
it.** If no identifier of a text is such a name, then within every bound the runs of the text on two
hosts print the same, fail alike and leave the same store behind, or neither of them ends. -/
theorem run_host_independent {text : String}
    (unnamed : ∀ tokens, tokenize text = .ok tokens → ∀ token ∈ tokens, token.kind = .identifier →
      token.lexeme ∉ hostNames)
    (fuel : Nat) (host other : Host) : run? fuel text host = run? fuel text other := by
  cases read : readProgram text 0 with
  | error errors => simp only [run?, read]
  | ok program =>
    rw [run?_of_read read, run?_of_read read]
    have named : ∀ stmt ∈ program, stmt.Meets (Node.Spelled (· ∉ hostNames)) :=
      spelled_of_readProgram read unnamed
    exact (executeAll_other_host named fuel host other).ofEnding?_eq id

/-- A program that shows a message in a callback runs alike on all hosts. -/
theorem run_host_independent_callback :
    (∃ tokens, tokenize "bdl f = nbh; m2a9it(f, 5, l3am(0));" = .ok tokens ∧
      ∀ token ∈ tokens, token.kind = .identifier →
        token.lexeme ∉ hostNames) ∧
    ∀ fuel host other, run? fuel "bdl f = nbh; m2a9it(f, 5, l3am(0));" host =
      run? fuel "bdl f = nbh; m2a9it(f, 5, l3am(0));" other := by
  have unnamed : (match tokenize "bdl f = nbh; m2a9it(f, 5, l3am(0));" with
      | .ok tokens => tokens.all fun token => token.kind != .identifier ||
        !hostNames.contains token.lexeme
      | .error _ => false) = true := by
    decide +kernel
  split at unnamed
  · next tokens lexed =>
    have named : ∀ token ∈ tokens, token.kind = .identifier →
        token.lexeme ∉ hostNames := by
      simpa [List.all_eq_true, or_iff_not_imp_left] using unnamed
    refine ⟨⟨tokens, lexed, named⟩, run_host_independent fun tokens' lexed' => ?_⟩
    obtain rfl := Except.ok.inj (lexed.symm.trans lexed')
    exact named
  · cases unnamed

end DarijaScript
