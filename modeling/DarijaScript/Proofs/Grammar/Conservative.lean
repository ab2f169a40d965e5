import Mathlib
import DarijaScript.Grammar.Program

/-!
# What every rule keeps

A rule never takes back an error, never passes the end of the file, and leaves the surroundings as
it found them, whether it succeeds or fails. The class `Conservative` is closed under the steps that
rules are made of, so for most rules instance search finds it from the text of the rule.
-/

set_option synthInstance.maxSize 1000

namespace DarijaScript

/-- A later state of reading. -/
structure Stream.Extends (before after : Stream) : Prop where
  errors : before.errors.toList <+: after.errors.toList
  surroundings : after.surroundings = before.surroundings
  source : after.source = before.source
  passed : ∃ tokens, before.rest = tokens ++ after.rest ∧ ∀ token ∈ tokens, token.isEnd = false

namespace Token

theorem isEnd_of_isPunctuation {token : Token} {sign : Char}
    (h : token.isPunctuation sign = true) : token.isEnd = false := by
  unfold isPunctuation at h
  unfold isEnd
  grind

theorem isKeyword_iff {token : Token} {keyword : Keyword} :
    token.isKeyword keyword = true ↔ token.keyword? = some keyword := by
  simp [isKeyword]

theorem isEnd_of_isKeyword {token : Token} {keyword : Keyword}
    (h : token.isKeyword keyword = true) : token.isEnd = false := by
  unfold isKeyword keyword? at h
  unfold isEnd
  grind

theorem isKeyword_eq_false_of_isEnd {token : Token} (ends : token.isEnd = true)
    (keyword : Keyword) : token.isKeyword keyword = false := by
  by_contra word
  simp [isEnd_of_isKeyword (by simpa using word)] at ends

end Token

namespace Stream

theorem Extends.refl (stream : Stream) : stream.Extends stream :=
  ⟨List.prefix_refl _, rfl, rfl, [], rfl, by simp⟩

theorem Extends.trans {first second third : Stream} (h : first.Extends second)
    (h' : second.Extends third) : first.Extends third := by
  obtain ⟨tokens, rest, ends⟩ := h.passed
  obtain ⟨others, rest', ends'⟩ := h'.passed
  refine ⟨h.errors.trans h'.errors, h'.surroundings.trans h.surroundings,
    h'.source.trans h.source, tokens ++ others, by rw [rest, rest', List.append_assoc], ?_⟩
  intro token mem
  rcases List.mem_append.mp mem with mem | mem
  · exact ends token mem
  · exact ends' token mem

theorem extends_skip (stream : Stream) (count : Nat)
    (ends : ∀ token ∈ stream.rest.take count, token.isEnd = false) :
    stream.Extends (stream.skip count) :=
  ⟨List.prefix_refl _, rfl, rfl, stream.rest.take count, (List.take_append_drop ..).symm, ends⟩

theorem extends_tail (stream : Stream) : stream.Extends stream.tail := by
  unfold tail
  split
  · exact .refl stream
  · next notEnd =>
    apply extends_skip
    cases h : stream.rest with
    | nil => simp
    | cons token rest => simpa [head, h] using notEnd

end Stream

namespace Parse

variable {α β : Type}

/-- The state in which a rule ended. -/
def stateOf : EStateM.Result SyntaxError Stream α → Stream
  | .ok _ stream => stream
  | .error _ stream => stream

/-- Whatever the rule meets, it ends in a later state of reading. -/
class Conservative (rule : Parse α) : Prop where
  extends_stateOf : ∀ stream : Stream, stream.Extends (stateOf (rule stream))

theorem Conservative.ok {rule : Parse α} [Conservative rule] {stream after : Stream} {a : α}
    (h : rule stream = .ok a after) : stream.Extends after := by
  have later : stream.Extends (stateOf (rule stream)) := extends_stateOf stream
  rwa [h] at later

theorem Conservative.error {rule : Parse α} [Conservative rule] {stream after : Stream}
    {error : SyntaxError} (h : rule stream = .error error after) : stream.Extends after := by
  have later : stream.Extends (stateOf (rule stream)) := extends_stateOf stream
  rwa [h] at later

theorem bind_apply (rule : Parse α) (next : α → Parse β) (stream : Stream) :
    (rule >>= next) stream =
      match rule stream with
      | .ok a after => next a after
      | .error error after => .error error after := by
  simp only [bind, EStateM.bind]
  cases rule stream <;> rfl

instance (a : α) : Conservative (pure a) := ⟨fun stream => .refl stream⟩

instance conservative_bind (rule : Parse α) (next : α → Parse β) [Conservative rule]
    [∀ a, Conservative (next a)] : Conservative (rule >>= next) where
  extends_stateOf stream := by
    rw [bind_apply]
    cases h : rule stream with
    | ok a after =>
      exact (Conservative.ok h).trans (Conservative.extends_stateOf after)
    | error error after => exact Conservative.error h

instance (condition : Prop) [Decidable condition] (rule other : Parse α) [Conservative rule]
    [Conservative other] : Conservative (if condition then rule else other) := by
  split <;> infer_instance

instance : Conservative peek := ⟨fun stream => .refl stream⟩

instance : Conservative remaining := ⟨fun stream => .refl stream⟩

instance : Conservative (get : Parse Stream) := ⟨fun stream => .refl stream⟩

instance : Conservative advance := ⟨fun stream => stream.extends_tail⟩

instance (token : Token) (issue : GrammarIssue) : Conservative (failAt token issue : Parse α) :=
  ⟨fun stream => .refl stream⟩

instance (issue : String → GrammarIssue) : Conservative (failHere issue : Parse α) := by
  unfold failHere
  infer_instance

instance (error : SyntaxError) : Conservative (record error) where
  extends_stateOf stream := by
    refine ⟨?_, rfl, rfl, [], rfl, by simp⟩
    exact ⟨[error], by simp [record, modify, modifyGet, MonadStateOf.modifyGet, EStateM.modifyGet,
      stateOf]⟩

instance (fits : Token → Bool) : Conservative (accept fits) := by
  unfold accept
  infer_instance

instance (fits : Token → Bool) (issue : String → GrammarIssue) :
    Conservative (expect fits issue) := by
  unfold expect
  infer_instance

instance (sign : Char) : Conservative (acceptSign sign) := by
  unfold acceptSign
  infer_instance

instance (sign : Char) : Conservative (expectSign sign) := by
  unfold expectSign
  infer_instance

instance : Conservative identifier := by
  unfold identifier
  infer_instance

instance (rule : Parse α) [Conservative rule] : Conservative (outcome rule) where
  extends_stateOf stream := by
    unfold outcome
    cases h : rule stream with
    | ok a after => exact Conservative.ok h
    | error error after => exact Conservative.error h

instance (change : Surroundings → Surroundings) (rule : Parse α) [Conservative rule] :
    Conservative (surroundedBy change rule) where
  extends_stateOf stream := by
    unfold surroundedBy
    cases h : rule { stream with surroundings := change stream.surroundings } with
    | ok a after =>
      have later := Conservative.ok h
      exact ⟨later.errors, rfl, later.source, later.passed⟩
    | error error after =>
      have later := Conservative.error h
      exact ⟨later.errors, rfl, later.source, later.passed⟩

private theorem boundary_passes (tokens : List Token) :
    ∀ token ∈ tokens.take (boundary tokens), token.isEnd = false := by
  induction tokens with
  | nil => simp
  | cons token rest ih =>
    unfold boundary
    split
    · simp
    · next brace =>
      have notEnd : token.isEnd = false := by
        simp only [Bool.or_eq_true, not_or, Bool.not_eq_true] at brace
        exact brace.1.1
      split
      · simp [notEnd]
      · split
        · simp
        · simpa [notEnd] using ih

instance (before : Nat) : Conservative (recover before) := by
  have : Conservative (modify fun stream => stream.skip (boundary stream.rest) : Parse PUnit) :=
    ⟨fun stream => stream.extends_skip _ (boundary_passes stream.rest)⟩
  unfold recover
  infer_instance

instance (thing : Parse α) [Conservative thing] (close : Char) (limit : Nat) :
    Conservative (separated thing close limit) := by
  induction limit with
  | zero => unfold separated; infer_instance
  | succ limit ih => unfold separated; infer_instance

instance (thing : Parse α) [Conservative thing] (limit : Nat) :
    Conservative (separatedTight thing limit) := by
  induction limit with
  | zero => unfold separatedTight; infer_instance
  | succ limit ih => unfold separatedTight; infer_instance

end Parse

namespace Grammar

open Parse

/-- Every rule of a level of nesting is conservative. -/
structure ConservativeRules (rules : Rules) : Prop where
  statement : Conservative rules.statement
  conditional : Conservative rules.conditional
  expression : Conservative rules.expression
  operand : Conservative rules.operand

/-- Every rule of the levels that are left is conservative. -/
class ConservativeLevels (levels : Levels) : Prop where
  of_mem : ∀ rules ∈ levels, ConservativeRules rules

theorem ConservativeLevels.tail {rules : Rules} {levels : Levels}
    (h : ConservativeLevels (rules :: levels)) : ConservativeLevels levels :=
  ⟨fun _ mem => h.of_mem _ (List.mem_cons_of_mem _ mem)⟩

theorem conservative_deeper {α : Type} {levels : Levels} (rule : Rules → Parse α)
    (h : ∀ rules ∈ levels, Conservative (rule rules)) : Conservative (levels.deeper rule) := by
  unfold Levels.deeper
  cases levels with
  | nil => infer_instance
  | cons rules _ => exact h rules (List.mem_cons_self ..)

instance (levels : Levels) [ConservativeLevels levels] : Conservative (nestedExpression levels) :=
  conservative_deeper _ fun rules mem => (ConservativeLevels.of_mem rules mem).expression

instance (levels : Levels) [ConservativeLevels levels] : Conservative (levels.deeper (·.operand)) :=
  conservative_deeper _ fun rules mem => (ConservativeLevels.of_mem rules mem).operand

instance (levels : Levels) [ConservativeLevels levels] :
    Conservative (levels.deeper (·.expression)) :=
  conservative_deeper _ fun rules mem => (ConservativeLevels.of_mem rules mem).expression

instance (levels : Levels) [ConservativeLevels levels] :
    Conservative (levels.deeper (·.statement)) :=
  conservative_deeper _ fun rules mem => (ConservativeLevels.of_mem rules mem).statement

instance (levels : Levels) [ConservativeLevels levels] :
    Conservative (levels.deeper (·.conditional)) :=
  conservative_deeper _ fun rules mem => (ConservativeLevels.of_mem rules mem).conditional

theorem conservative_chainFrom (joint : Joint) (operand : Levels → Parse Expr)
    (h : ∀ levels [ConservativeLevels levels], Conservative (operand levels)) (levels : Levels)
    [inst : ConservativeLevels levels] (left : Expr) :
    Conservative (chainFrom joint operand levels left) := by
  revert inst
  induction levels generalizing left with
  | nil =>
    intro inst
    unfold chainFrom
    refine @conservative_bind _ _ _ _ _ fun token => ?_
    split <;> infer_instance
  | cons rules levels ih =>
    intro inst
    have := inst.tail
    have := h levels
    have := fun left => ih left
    unfold chainFrom
    refine @conservative_bind _ _ _ _ _ fun token => ?_
    split <;> infer_instance

theorem conservative_chain (joint : Joint) (operand : Levels → Parse Expr)
    (h : ∀ levels [ConservativeLevels levels], Conservative (operand levels)) (levels : Levels)
    [ConservativeLevels levels] : Conservative (chain joint operand levels) := by
  have := h levels
  have := conservative_chainFrom joint operand h levels
  unfold chain
  infer_instance

instance (levels : Levels) [ConservativeLevels levels] (opening : Token) :
    Conservative (arguments levels opening) := by
  unfold arguments
  infer_instance

instance (levels : Levels) [ConservativeLevels levels] (owner : Expr) :
    Conservative (memberOf levels owner) := by
  unfold memberOf
  infer_instance

instance (levels : Levels) [inst : ConservativeLevels levels] (owner : Expr) :
    Conservative (membersFrom levels owner) := by
  revert inst
  induction levels generalizing owner with
  | nil => intro inst; unfold membersFrom; infer_instance
  | cons rules levels ih =>
    intro inst
    have := inst.tail
    have := fun owner => ih owner
    unfold membersFrom
    infer_instance

instance (levels : Levels) [inst : ConservativeLevels levels] (callee : Expr) :
    Conservative (callsFrom levels callee) := by
  revert inst
  induction levels generalizing callee with
  | nil => intro inst; unfold callsFrom; infer_instance
  | cons rules levels ih =>
    intro inst
    have := inst.tail
    have := fun callee => ih callee
    unfold callsFrom
    infer_instance

instance (levels : Levels) [ConservativeLevels levels] (stops : Token → Bool) (limit : Nat) :
    Conservative (items levels stops limit) := by
  induction limit with
  | zero => unfold items; infer_instance
  | succ limit ih =>
    have (before : Nat) (result : Except SyntaxError Stmt) : Conservative (match result with
        | .ok stmt => do
          let others ← items levels stops limit
          pure (stmt :: others)
        | .error error => do
          record error
          recover before
          items levels stops limit : Parse (List Stmt)) := by
      split <;> infer_instance
    unfold items
    infer_instance

section

variable (levels : Levels) [ConservativeLevels levels]

instance : Conservative (block levels) := by
  unfold block
  infer_instance

instance (opening : Token) (name : Option Identifier) :
    Conservative (functionFrom levels opening name) := by
  unfold functionFrom
  dsimp only
  infer_instance

instance : Conservative (entry levels) := by
  unfold entry
  refine @conservative_bind _ _ _ _ _ fun token => ?_
  dsimp only
  repeat' split
  all_goals infer_instance

instance : Conservative (atom levels) := by
  unfold atom
  refine @conservative_bind _ _ _ _ _ fun token => ?_
  repeat' split
  all_goals infer_instance

instance : Conservative constructors where
  extends_stateOf stream := by
    apply stream.extends_skip
    intro token mem
    rw [← List.prefix_iff_eq_take.mp (List.takeWhile_prefix _)] at mem
    have word := List.mem_takeWhile_imp mem
    exact Token.isEnd_of_isKeyword word

instance (keyword : Token) (callee : Expr) :
    Conservative (constructFrom levels keyword callee) := by
  unfold constructFrom
  infer_instance

instance (keywords : List Token) (first : Expr) :
    Conservative (keywords.foldrM (constructFrom levels) first) := by
  induction keywords with
  | nil => rw [List.foldrM_nil]; infer_instance
  | cons keyword keywords ih => rw [List.foldrM_cons]; infer_instance

instance : Conservative (primary levels) := by
  unfold primary
  infer_instance

instance conservative_updateBehind (target : Expr) : Conservative (do
    let token ← peek
    match stepOp? token with
    | none => pure target
    | some op =>
      if target.isReference then
        let _ ← advance
        pure (.update op false target token.position)
      else failHere .invalidUpdateTarget : Parse Expr) := by
  refine @conservative_bind _ _ _ _ _ fun token => ?_
  split <;> infer_instance

instance : Conservative (updated levels) := by
  unfold updated
  infer_instance

instance : Conservative (operand levels) := by
  unfold operand
  refine @conservative_bind _ _ _ _ _ fun token => ?_
  repeat' split
  all_goals infer_instance

instance : Conservative (disjunction levels) := by
  unfold disjunction conjunction equality comparison sum product
  iterate 5 refine conservative_chain _ _ (fun _ _ => ?_) _
  exact conservative_chain _ _ (fun _ _ => inferInstance) _

instance conservative_assignmentBehind (target : Expr) : Conservative (do
    let token ← peek
    match assignOp? token with
    | none => pure target
    | some op =>
      if target.isReference then
        let _ ← advance
        let value ← levels.deeper (·.expression)
        pure (.assign op target value token.position)
      else failHere .invalidAssignmentTarget : Parse Expr) := by
  refine @conservative_bind _ _ _ _ _ fun token => ?_
  split <;> infer_instance

instance : Conservative (assignment levels) := by
  unfold assignment
  infer_instance

instance : Conservative (parenthesizedExpression levels) := by
  unfold parenthesizedExpression
  infer_instance

instance : Conservative (declaration levels) := by
  unfold declaration
  infer_instance

instance : Conservative (functionDeclaration levels) := by
  unfold functionDeclaration
  infer_instance

instance : Conservative (nestedStatement levels) := by
  unfold nestedStatement
  infer_instance

instance : Conservative (conditional levels) := by
  unfold conditional
  infer_instance

instance : Conservative (loopBody levels) := by
  unfold loopBody
  infer_instance

instance : Conservative (whileLoop levels) := by
  unfold whileLoop
  infer_instance

instance : Conservative (doWhileLoop levels) := by
  unfold doWhileLoop
  infer_instance

instance : Conservative (loopStart levels) := by
  unfold loopStart
  infer_instance

instance (sign : Char) : Conservative (expressionUnless levels sign) := by
  unfold expressionUnless
  infer_instance

instance : Conservative (forLoop levels) := by
  unfold forLoop
  infer_instance

instance : Conservative (handler levels) := by
  unfold handler
  infer_instance

instance : Conservative (finalizer levels) := by
  unfold finalizer
  infer_instance

instance : Conservative (attempt levels) := by
  unfold attempt
  infer_instance

instance (test : Option Expr) : Conservative (clauseFrom levels test) := by
  unfold clauseFrom
  infer_instance

instance (hasDefault : Bool) (limit : Nat) : Conservative (clauses levels hasDefault limit) := by
  induction limit generalizing hasDefault with
  | zero => unfold clauses; infer_instance
  | succ limit ih =>
    unfold clauses
    dsimp only
    infer_instance

instance : Conservative (choice levels) := by
  unfold choice
  infer_instance

instance : Conservative (giveBack levels) := by
  unfold giveBack
  infer_instance

instance : Conservative leave := by
  unfold leave
  infer_instance

instance : Conservative next := by
  unfold next
  infer_instance

instance (rule : Parse Stmt) [Conservative rule] : Conservative (terminated rule) := by
  unfold terminated
  infer_instance

instance : Conservative (evaluation levels) := by
  unfold evaluation
  infer_instance

instance : Conservative (statement levels) := by
  unfold statement
  refine @conservative_bind _ _ _ _ _ fun token => ?_
  repeat' split
  all_goals infer_instance

end

instance (n : Nat) : ConservativeLevels (Grammar.levels n) := by
  induction n with
  | zero => exact ⟨by simp [Grammar.levels]⟩
  | succ n ih =>
    refine ⟨fun rules mem => ?_⟩
    rcases List.mem_cons.mp mem with rfl | mem
    · exact ⟨inferInstanceAs (Conservative (statement _)),
        inferInstanceAs (Conservative (conditional _)),
        inferInstanceAs (Conservative (assignment _)), inferInstanceAs (Conservative (operand _))⟩
    · exact ih.of_mem rules mem

end Grammar

end DarijaScript
