import DarijaScript.Proofs.Evaluation.InStep
import DarijaScript.Proofs.Evaluation.Invariant
import DarijaScript.Proofs.Grammar.Marks
import DarijaScript.Proofs.Lexing.Tokenize
import DarijaScript.Proofs.Store.Changes

/-!
# Places of exceptions

An exception that leaves a program has the place of a node of the program. All faults begin without a
place; those of names, members, assignments and calls get one from the node that they come from, and
the receiver is bound everywhere, so the one expression that gives no place to its fault has none.
-/

namespace DarijaScript

/-- The fault of the nesting of the evaluation itself. -/
def Exception.isNesting : Exception → Bool
  | .fault (.nestingLimit _) _ => true
  | _ => false

/-- The exception stands where a node of the program does. -/
def Exception.StandsIn (program : List Stmt) (e : Exception) : Prop :=
  ∃ mark ∈ Stmt.marksOfAll program, mark.position = e.position

theorem Exception.isNesting_located (e : Exception) (position : Position) :
    (e.located position).isNesting = e.isNesting := by
  cases e with
  | fault f _ => cases f <;> rfl
  | raised _ _ => rfl

theorem Exception.position_located (e : Exception) (position : Position) :
    (e.located position).position = if e.position.line = 0 then position else e.position := by
  cases e <;> rfl

/-- The trees of a program, in which the receiver is always bound. -/
def Invariant.places (program : List Stmt) : Invariant where
  good := (· ∈ Stmt.marksOfAll program)
  mayBind := fun _ => True
  fits := fun store id => store.contains id Keyword.hadi.text = true
  changes := Store.Extends
  raises := fun e => e.isNesting = true ∨ e.StandsIn program
  refl := Store.extends_refl
  trans := Store.extends_trans
  others := fun same _ => Store.extends_of_scopes_eq same
  binds := fun _ => Store.extends_define
  assigns := fun _ _ _ _ => Store.extends_define
  adds := Store.extends_addScope
  kept := fun bound changes => changes.contains _ bound
  next := fun _ => trivial
  enters := Store.contains_addChild
  renews := Store.contains_addSnapshot
  receiver := by
    intro store id bound unbound
    rw [Store.contains, ← Option.isSome_map (f := (·.2.value))] at bound
    rw [Store.lookup?] at unbound
    rw [unbound] at bound
    cases bound
  nesting := fun _ => .inl rfl
  located := by
    intro mark e good raised
    rw [Exception.isNesting_located]
    by_cases placeless : e.position.line = 0
    · refine .inr ⟨mark, good, ?_⟩
      rw [Exception.position_located, if_pos placeless]
    · refine (raised.resolve_right placeless).imp_right ?_
      rintro ⟨other, inside, same⟩
      refine ⟨other, inside, ?_⟩
      rw [Exception.position_located, if_neg placeless, same]

instance (program : List Stmt) : (Invariant.places program).Receiving where
  receives := fun _ _ => Store.contains_of_declares

theorem fits_places_initial (program : List Stmt) (host : Host) :
    (Invariant.places program).Fits ⟨True, False⟩ (Machine.initial host) where
  known := Store.meets_initial _
  active := Store.contains_addChild (Store.contains_of_declares (by decide +kernel))
  own := fun _ => trivial

/-- An exception with which the statements of a program end stands at a node of the program, unless
the evaluation is nested too deep. -/
theorem standsIn_of_execute {program : List Stmt} {host : Host} {fuel : Nat} {e : Exception}
    {after : Machine}
    (ended : Machine.execute fuel program (Machine.initial host) = .error (.exception e) after)
    (shallow : e.isNesting = false) : e.StandsIn program := by
  let J := (Invariant.places program).toJudgement
  have marked : ∀ stmt ∈ program, stmt.Marked J.good :=
    forall_marksOfAll_stmt.mp fun _ mem => mem
  have judged : J.holds ⟨True, False⟩ (Machine.execute fuel program) J.KnowsFlow :=
    Judgement.items (Judgement.respects_interpreter fuel) trivial marked
  have ends := judged _ (fits_places_initial program host)
  rw [ended] at ends
  obtain ⟨⟨-, raised | loose⟩, -⟩ := ends
  · exact raised.resolve_left (by simp [shallow])
  · exact loose.1.elim

theorem line_pos_of_readProgram {text : String} {source : Nat} {program : List Stmt}
    (read : readProgram text source = .ok program) :
    ∀ mark ∈ Stmt.marksOfAll program, 1 ≤ mark.position.line := by
  have marked : ∀ stmt ∈ program, stmt.Marked fun mark => 1 ≤ mark.position.line := by
    refine marked_of_readProgram read fun tokens lexed token mem => ?_
    have line := line_pos_of_tokenize lexed token mem
    exact ⟨fun _ => line, line⟩
  exact forall_marksOfAll_stmt.mpr marked

/-- When the statements of a program that was read end with an exception, it stands at a name, call,
construction, member, assignment or update of the program, on a line counted from one, unless the
evaluation is nested too deep. -/
theorem exception_placed {text : String} {source fuel : Nat} {program : List Stmt} {host : Host}
    {e : Exception} {after : Machine} (read : readProgram text source = .ok program)
    (ended : Machine.execute fuel program (Machine.initial host) = .error (.exception e) after)
    (shallow : e.isNesting = false) :
    1 ≤ e.position.line ∧ ∃ mark ∈ Stmt.marksOfAll program, mark.position = e.position := by
  obtain ⟨mark, mem, same⟩ := standsIn_of_execute ended shallow
  exact ⟨same ▸ line_pos_of_readProgram read mark mem, mark, mem, same⟩

/-- A value raised by a built-in function that a built-in method calls stands where the method is
called. -/
theorem exception_placed_callback :
    ∃ program e after, readProgram "[mchmcha].kol_wahed(rmmi);" 0 = .ok program ∧
      Machine.execute 9 program (Machine.initial (.scripted [] [] [] [])) =
        .error (.exception e) after ∧
      e.isNesting = false ∧ e.position = ⟨1, 20⟩ ∧
      1 ≤ e.position.line ∧ ∃ mark ∈ Stmt.marksOfAll program, mark.position = e.position := by
  have raises : (readProgram "[mchmcha].kol_wahed(rmmi);" 0).toOption.any (fun program =>
      Ending.raises (fun e => decide (e.isNesting = false ∧ e.position = ⟨1, 20⟩))
        (Machine.execute 9 program (Machine.initial (.scripted [] [] [] [])))) = true := by
    decide +kernel
  cases read : readProgram "[mchmcha].kol_wahed(rmmi);" 0 with
  | error errors =>
    rw [read] at raises
    cases raises
  | ok program =>
    have raises : Ending.raises (fun e => decide (e.isNesting = false ∧ e.position = ⟨1, 20⟩))
        (Machine.execute 9 program (Machine.initial (.scripted [] [] [] []))) = true := by
      rw [read] at raises
      exact raises
    unfold Ending.raises at raises
    split at raises
    · next e after ended =>
      obtain ⟨shallow, position⟩ := of_decide_eq_true raises
      exact ⟨program, e, after, rfl, ended, shallow, position,
        exception_placed read ended shallow⟩
    · cases raises

end DarijaScript
