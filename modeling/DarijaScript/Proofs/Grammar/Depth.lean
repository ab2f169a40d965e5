import DarijaScript.Proofs.Grammar.Acceptance
import DarijaScript.Proofs.Grammar.Recovery
import DarijaScript.Proofs.Syntax.Height

/-!
# How deep programs nest

The levels of nesting bound the height of what is read, but not by themselves: the keywords that
construct objects may stand in a row without taking a level. A rule that is given `n` levels adds at
most a multiple of `n + 1` to what its nested parts can have, where the factor depends on how many
such keywords stand in a row; so the height is bounded by this factor and the square of the levels.
-/

namespace DarijaScript

open Parse Grammar

/-- The most constructing keywords that stand in a row. -/
def constructorRun : List Token → Nat
  | [] => 0
  | token :: rest =>
    max ((token :: rest).takeWhile (·.isKeyword .jdid)).length (constructorRun rest)

theorem length_takeWhile_le_run (tokens : List Token) :
    (tokens.takeWhile (·.isKeyword .jdid)).length ≤ constructorRun tokens := by
  cases tokens with
  | nil => exact Nat.le_refl _
  | cons token rest => exact Nat.le_max_left _ _

theorem constructorRun_le_append (passed rest : List Token) :
    constructorRun rest ≤ constructorRun (passed ++ rest) := by
  induction passed with
  | nil => exact Nat.le_refl _
  | cons token passed ih => exact Nat.le_trans ih (Nat.le_max_right _ _)

namespace Parse

variable {α β : Type} {run : Nat} {good : α → Prop} {good' : β → Prop}

/-- Whatever the rule gives is good, if no more constructing keywords than these stand in a row. -/
def Yields (run : Nat) (rule : Parse α) (good : α → Prop) : Prop :=
  ∀ stream a after, constructorRun stream.rest ≤ run → rule stream = .ok a after → good a

namespace Yields

theorem pure {a : α} (h : good a) : Yields run (Pure.pure a) good := by
  rintro stream a after - eq
  cases eq
  exact h

theorem bind {rule : Parse α} [Conservative rule] {next : α → Parse β}
    (first : Yields run rule good) (behind : ∀ a, good a → Yields run (next a) good') :
    Yields run (rule >>= next) good' := by
  intro stream b after within eq
  rw [bind_apply] at eq
  cases h : rule stream with
  | error error mid =>
    rw [h] at eq
    cases eq
  | ok a mid =>
    rw [h] at eq
    obtain ⟨passed, rest, -⟩ := (Conservative.ok h).passed
    rw [rest] at within
    exact behind a (first stream a mid (rest ▸ within) h) mid b after
      (Nat.le_trans (constructorRun_le_append passed mid.rest) within) eq

theorem behind {rule : Parse α} [Conservative rule] {next : α → Parse β}
    (h : ∀ a, Yields run (next a) good') : Yields run (rule >>= next) good' :=
  have any : Yields run rule fun _ => True := fun _ _ _ _ _ => trivial
  bind any fun a _ => h a

theorem map {rule : Parse α} [Conservative rule] {make : α → β} (first : Yields run rule good)
    (h : ∀ a, good a → good' (make a)) :
    Yields run (do let a ← rule; Pure.pure (make a)) good' :=
  bind first fun a ok => pure (h a ok)

theorem ite {condition : Prop} [Decidable condition] {rule other : Parse α}
    (h : Yields run rule good) (h' : Yields run other good) :
    Yields run (if condition then rule else other) good := by
  split
  · exact h
  · exact h'

theorem failAt {token : Token} {issue : GrammarIssue} :
    Yields run (Parse.failAt token issue) good := nofun

theorem failHere {issue : String → GrammarIssue} : Yields run (Parse.failHere issue) good :=
  nofun

theorem mono {rule : Parse α} {better : α → Prop} (h : Yields run rule better)
    (weaker : ∀ a, better a → good a) : Yields run rule good :=
  fun stream a after within eq => weaker a (h stream a after within eq)

theorem surroundedBy {change : Surroundings → Surroundings} {rule : Parse α}
    (h : Yields run rule good) : Yields run (Parse.surroundedBy change rule) good := by
  intro stream a after within eq
  unfold Parse.surroundedBy at eq
  cases inner : rule { stream with surroundings := change stream.surroundings } with
  | error error mid =>
    rw [inner] at eq
    cases eq
  | ok b mid =>
    rw [inner] at eq
    cases eq
    exact h { stream with surroundings := change stream.surroundings } a mid within inner

theorem outcome {rule : Parse α} (h : Yields run rule good) :
    Yields run (Parse.outcome rule) (∀ a, · = .ok a → good a) := by
  rintro stream result after within eq a rfl
  unfold Parse.outcome at eq
  cases inner : rule stream with
  | error error mid =>
    rw [inner] at eq
    cases eq
  | ok b mid =>
    rw [inner] at eq
    cases eq
    exact h stream a after within inner

theorem separated {thing : Parse α} [Conservative thing] (h : Yields run thing good)
    (close : Char) (limit : Nat) :
    Yields run (Parse.separated thing close limit) (∀ a ∈ ·, good a) := by
  induction limit with
  | zero => exact pure (List.forall_mem_nil _)
  | succ limit ih =>
    unfold Parse.separated
    refine behind fun token => ite (pure (List.forall_mem_nil _)) ?_
    refine bind h fun first ok => behind fun comma => ite ?_ ?_
    · exact map ih fun others rest => List.forall_mem_cons.mpr ⟨ok, rest⟩
    · exact pure (List.forall_mem_singleton.mpr ok)

theorem separatedTight {thing : Parse α} [Conservative thing] (h : Yields run thing good)
    (limit : Nat) : Yields run (Parse.separatedTight thing limit) (∀ a ∈ ·, good a) := by
  induction limit with
  | zero => exact pure (List.forall_mem_nil _)
  | succ limit ih =>
    unfold Parse.separatedTight
    refine bind h fun first ok => behind fun comma => ite ?_ ?_
    · exact map ih fun others rest => List.forall_mem_cons.mpr ⟨ok, rest⟩
    · exact pure (List.forall_mem_singleton.mpr ok)

end Yields

end Parse

namespace Grammar

variable {run bound : Nat}

/-- What the rules give is not higher than the bound. -/
structure LimitedRules (run bound : Nat) (rules : Rules) : Prop where
  statement : Yields run rules.statement (·.height ≤ bound)
  conditional : Yields run rules.conditional (·.height ≤ bound)
  expression : Yields run rules.expression (·.height ≤ bound)
  operand : Yields run rules.operand (·.height ≤ bound)

/-- What is read further in is not higher than the bound. -/
def Limited (run bound : Nat) (levels : Levels) : Prop :=
  ∀ rules ∈ levels, LimitedRules run bound rules

theorem Limited.tail {rules : Rules} {levels : Levels} (h : Limited run bound (rules :: levels)) :
    Limited run bound levels :=
  fun rules mem => h rules (List.mem_cons_of_mem _ mem)

theorem yields_deeper {α : Type} {levels : Levels} {rule : Rules → Parse α} {good : α → Prop}
    (h : ∀ rules ∈ levels, Yields run (rule rules) good) :
    Yields run (levels.deeper rule) good := by
  unfold Levels.deeper
  cases levels with
  | nil => exact .failHere
  | cons rules _ => exact h rules (List.mem_cons_self ..)

/-- The operators join two operands by a node. -/
def Joint.Adds (joint : Joint) : Prop :=
  ∀ token join, joint token = some join →
    ∀ left right, (join left right).height = max left.height right.height + 1

theorem adds_logicalJoint (op : Connective) : (logicalJoint op).Adds := by
  intro token join eq left right
  unfold logicalJoint at eq
  split at eq <;> cases eq
  rfl

theorem adds_binaryJoint (ops : List BinaryOp) : (binaryJoint ops).Adds := by
  intro token join eq left right
  obtain ⟨op, -, rfl⟩ := Option.map_eq_some_iff.mp eq
  rfl

variable {levels : Levels}

theorem Limited.nestedExpression (limited : Limited run bound levels) :
    Yields run (nestedExpression levels) (·.height ≤ bound) :=
  yields_deeper fun rules mem => (limited rules mem).expression

theorem Limited.nestedStatement (limited : Limited run bound levels) :
    Yields run (nestedStatement levels) (·.height ≤ bound) :=
  yields_deeper fun rules mem => (limited rules mem).statement

/-! ### Expressions -/

section

variable [ConservativeLevels levels]

theorem yields_arguments (limited : Limited run bound levels) (opening : Token) :
    Yields run (arguments levels opening) (Expr.heightOfAll · ≤ bound) := by
  unfold arguments
  have rest (args : List Expr) (fine : Expr.heightOfAll args ≤ bound) :
      Yields run (do
        if maxArguments < args.length then
          record ⟨.grammatical (.tooManyArguments args.length), opening.position⟩
        pure args) (Expr.heightOfAll · ≤ bound) :=
    .ite (.behind fun _ => .pure fine) (.pure fine)
  refine .behind fun closes => .ite (.bind (.pure (Nat.zero_le _)) rest) ?_
  refine .behind fun count => .bind (.separatedTight limited.nestedExpression _) ?_
  exact fun args fine => .behind fun _ => .bind (.pure (Expr.heightOfAll_le.mpr fine)) rest

theorem yields_memberOf (limited : Limited run bound levels) {owner : Expr} {n : Nat}
    (le : owner.height ≤ n) (le' : bound ≤ n) :
    Yields run (memberOf levels owner) (·.height ≤ n + 1) := by
  unfold memberOf
  refine .behind fun token => .ite (.behind fun name => .pure ?_) ?_
  · simpa [Expr.height, Property.height] using le
  · refine .bind limited.nestedExpression fun key fine => .behind fun _ => .pure ?_
    simp only [Expr.height, Property.height]
    omega

end

theorem yields_membersFrom [conservative : ConservativeLevels levels]
    (limited : Limited run bound levels) {owner : Expr} {n : Nat} (le : owner.height ≤ n)
    (le' : bound ≤ n) : Yields run (membersFrom levels owner) (·.height ≤ n + levels.length) := by
  revert conservative
  induction levels generalizing owner n with
  | nil =>
    intro conservative
    unfold membersFrom
    exact .behind fun token => .ite .failHere (.pure le)
  | cons rules levels ih =>
    intro conservative
    have := conservative.tail
    have limited := limited.tail
    unfold membersFrom
    rw [List.length_cons, Nat.add_comm levels.length, ← Nat.add_assoc]
    refine .behind fun token => .ite ?_ (.pure (by omega))
    refine .bind (yields_memberOf limited le le') fun member fine => ?_
    exact ih limited fine (by omega)

theorem yields_callsFrom [conservative : ConservativeLevels levels]
    (limited : Limited run bound levels) {callee : Expr} {n : Nat} (le : callee.height ≤ n)
    (le' : bound ≤ n) : Yields run (callsFrom levels callee) (·.height ≤ n + levels.length) := by
  revert conservative
  induction levels generalizing callee n with
  | nil =>
    intro conservative
    unfold callsFrom
    exact .behind fun token => .ite .failHere (.pure le)
  | cons rules levels ih =>
    intro conservative
    have := conservative.tail
    have limited := limited.tail
    unfold callsFrom
    rw [List.length_cons, Nat.add_comm levels.length, ← Nat.add_assoc]
    refine .behind fun token => .ite (.behind fun _ => ?_) (.ite ?_ (.pure (by omega)))
    · refine .bind (yields_arguments limited token) fun args fine => ?_
      refine ih limited ?_ (by omega)
      simp only [Expr.height]
      omega
    · refine .bind (yields_memberOf limited le le') fun member fine => ?_
      exact ih limited fine (by omega)

section

variable [ConservativeLevels levels]

theorem yields_items (limited : Limited run bound levels) (stops : Token → Bool) (limit : Nat) :
    Yields run (items levels stops limit) (Stmt.heightOfAll · ≤ bound) := by
  induction limit with
  | zero => exact .pure (Nat.zero_le _)
  | succ limit ih =>
    unfold items
    refine .behind fun token => .ite (.pure (Nat.zero_le _)) (.behind fun before => ?_)
    refine .bind (.outcome limited.nestedStatement) fun result fine => ?_
    cases result with
    | ok stmt => exact .map ih fun others rest => Nat.max_le.mpr ⟨fine stmt rfl, rest⟩
    | error error => exact .behind fun _ => .behind fun _ => ih

theorem yields_block (limited : Limited run bound levels) :
    Yields run (block levels) (Stmt.heightOfAll · ≤ bound) := by
  unfold block
  refine .behind fun _ => .behind fun limit => .bind (yields_items limited _ limit) ?_
  exact fun body fine => .behind fun _ => .pure fine

theorem yields_functionFrom (limited : Limited run bound levels) (opening : Token)
    (name : Option Identifier) :
    Yields run (functionFrom levels opening name) (·.height ≤ bound) := by
  unfold functionFrom
  refine .behind fun parenthesis => .behind fun limit => .behind fun params => .behind fun _ => ?_
  have rest : Yields run (do
      let body ← surroundedBy (fun _ => ⟨0, 0, true⟩) (block levels)
      let source := (← get).source
      pure (.mk name params body ⟨source, opening.position⟩) : Parse Function)
        (·.height ≤ bound) := by
    refine .bind (.surroundedBy (yields_block limited)) fun body fine => ?_
    exact .behind fun stream => .pure fine
  exact .ite (.behind fun _ => rest) rest

theorem yields_entry (limited : Limited run bound levels) :
    Yields run (entry levels) (·.2.height ≤ bound) := by
  unfold entry
  refine .behind fun token => ?_
  have rest (key : String) : Yields run (do
      let _ ← expectSign ':'
      let value ← nestedExpression levels
      pure (key, value) : Parse (String × Expr)) (·.2.height ≤ bound) :=
    .behind fun _ => .map limited.nestedExpression fun value fine => fine
  dsimp only
  repeat' split
  all_goals exact .behind fun key => rest key

theorem yields_atom (limited : Limited run bound levels) :
    Yields run (atom levels) (·.height ≤ bound + 1) := by
  unfold atom
  refine .behind fun token => ?_
  split
  · split
    · exact .pure (Nat.le_add_left _ _)
    · exact .failAt
  · exact .pure (Nat.le_add_left _ _)
  · exact .pure (Nat.le_add_left _ _)
  · exact .pure (Nat.le_add_left _ _)
  · split
    · exact .pure (Nat.le_add_left _ _)
    · exact .pure (Nat.le_add_left _ _)
    · exact .pure (Nat.le_add_left _ _)
    · have rest (name : Option Identifier) : Yields run (do
          let f ← functionFrom levels token name
          pure (.function f) : Parse Expr) (·.height ≤ bound + 1) :=
        .map (yields_functionFrom limited token name) fun f fine => Nat.succ_le_succ fine
      refine .behind fun next => .ite ?_ (.behind fun name => rest name)
      exact .behind fun _ => .behind fun name => rest name
    · exact .failAt
  · refine .ite ?_ (.ite ?_ (.ite ?_ .failAt))
    · refine .bind limited.nestedExpression fun expr fine => .behind fun _ => .pure ?_
      exact Nat.le_succ_of_le fine
    · refine .behind fun count => .bind (.separated limited.nestedExpression _ _) ?_
      refine fun elements fine => .behind fun _ => .pure (Nat.succ_le_succ ?_)
      exact Expr.heightOfAll_le.mpr fine
    · refine .behind fun count => .bind (.separated (yields_entry limited) _ _) ?_
      refine fun entries fine => .behind fun _ => .pure (Nat.succ_le_succ ?_)
      exact Expr.heightOfEntries_le.mpr fine
  · exact .failAt

theorem yields_constructFrom (limited : Limited run bound levels) {keyword : Token}
    {callee : Expr} {n : Nat} (le : callee.height ≤ n) (le' : bound ≤ n) :
    Yields run (constructFrom levels keyword callee) (·.height ≤ n + levels.length + 1) := by
  unfold constructFrom
  refine .bind (yields_membersFrom limited le le') fun callee fine => ?_
  refine .behind fun token => .ite (.behind fun _ => ?_) (.pure ?_)
  · refine .map (yields_arguments limited token) fun args fine' => ?_
    simp only [Expr.height]
    omega
  · simpa [Expr.height, Expr.heightOfAll] using fine

/-- Every constructing keyword adds a node and the members that stand behind it. -/
theorem yields_constructors (limited : Limited run bound levels) (keywords : List Token)
    {first : Expr} {n : Nat} (le : first.height ≤ n) (le' : bound ≤ n) :
    Yields run (keywords.foldrM (constructFrom levels) first)
      (·.height ≤ n + keywords.length * (levels.length + 1)) := by
  induction keywords with
  | nil => exact .pure (by simpa using le)
  | cons keyword keywords ih =>
    rw [List.foldrM_cons]
    refine .bind ih fun callee fine => ?_
    refine (yields_constructFrom limited fine (by omega)).mono fun expr fine => ?_
    rw [List.length_cons, Nat.succ_mul]
    omega

theorem yields_primary (limited : Limited run bound levels) :
    Yields run (primary levels) (·.height ≤ bound + 1 + run * (levels.length + 1)) := by
  have few : Yields run constructors (·.length ≤ run) := by
    rintro stream keywords after within eq
    cases eq
    exact Nat.le_trans (length_takeWhile_le_run stream.rest) within
  unfold primary
  refine .bind few fun keywords few => .bind (yields_atom limited) fun first fine => ?_
  refine (yields_constructors limited keywords fine (by omega)).mono fun expr fine => ?_
  have factor := Nat.mul_le_mul_right (levels.length + 1) few
  omega

theorem yields_updated (limited : Limited run bound levels) :
    Yields run (updated levels)
      (·.height ≤ bound + run * (levels.length + 1) + levels.length + 2) := by
  unfold updated
  refine .bind (yields_primary limited) fun first fine => ?_
  refine .bind (yields_callsFrom limited fine (by omega)) fun target fine => ?_
  refine .behind fun token => ?_
  cases stepOp? token with
  | none => exact .pure (by omega)
  | some op =>
    refine .ite (.behind fun _ => .pure ?_) .failHere
    simp only [Expr.height]
    omega

theorem yields_operand (limited : Limited run bound levels) :
    Yields run (operand levels)
      (·.height ≤ bound + run * (levels.length + 1) + levels.length + 2) := by
  have nested : Yields run (levels.deeper (·.operand)) (·.height ≤ bound) :=
    yields_deeper fun rules mem => (limited rules mem).operand
  unfold operand
  refine .behind fun token => ?_
  cases stepOp? token with
  | some op =>
    refine .behind fun _ => .bind nested fun target fine => .ite (.pure ?_) .failAt
    simp only [Expr.height]
    omega
  | none =>
    cases unaryOp? token with
    | some op =>
      refine .behind fun _ => .map nested fun expr fine => ?_
      simp only [Expr.height]
      omega
    | none => exact yields_updated limited

end

/-! ### Chains -/

/-- At some level or further in, operands are not higher than this. -/
structure Operands (run bound n high : Nat) (operand : Levels → Parse Expr) : Prop where
  conservative : ∀ levels [ConservativeLevels levels], Conservative (operand levels)
  yields : ∀ levels [ConservativeLevels levels], Limited run bound levels → levels.length ≤ n →
    Yields run (operand levels) (·.height ≤ high)

variable {n high : Nat} {joint : Joint} {operand : Levels → Parse Expr}

theorem Operands.chainFrom (h : Operands run bound n high operand) (adds : joint.Adds)
    [conservative : ConservativeLevels levels] (limited : Limited run bound levels)
    (short : levels.length ≤ n) {left : Expr} {m : Nat} (le : left.height ≤ m) (le' : high ≤ m) :
    Yields run (chainFrom joint operand levels left) (·.height ≤ m + levels.length) := by
  revert conservative
  induction levels generalizing left m with
  | nil =>
    intro conservative
    unfold Grammar.chainFrom
    refine .behind fun token => ?_
    cases joint token with
    | none => exact .pure le
    | some join => exact .behind fun _ => .failHere
  | cons rules levels ih =>
    intro conservative
    have := conservative.tail
    have := h.conservative levels
    rw [List.length_cons] at short
    unfold Grammar.chainFrom
    rw [List.length_cons, Nat.add_comm levels.length, ← Nat.add_assoc]
    refine .behind fun token => ?_
    cases joins : joint token with
    | none => exact .pure (by omega)
    | some join =>
      refine .behind fun _ => .bind (h.yields levels limited.tail (by omega)) fun right fine => ?_
      refine ih limited.tail (by omega) ?_ (by omega)
      rw [adds token join joins]
      omega

theorem Operands.chain (h : Operands run bound n high operand) (adds : joint.Adds) :
    Operands run bound n (high + n) (Grammar.chain joint operand) where
  conservative levels _ := conservative_chain joint operand h.conservative levels
  yields levels conservative limited short := by
    have := h.conservative levels
    unfold Grammar.chain
    refine .bind (h.yields levels limited short) fun first fine => ?_
    refine (h.chainFrom adds limited short fine (Nat.le_refl _)).mono fun expr fine => ?_
    omega

/-- What the operators in front of an operand, the calls behind it and the constructions in it add
to what is nested. -/
theorem operands_operand :
    Operands run bound n (bound + run * (n + 1) + n + 2) Grammar.operand where
  conservative levels _ := inferInstance
  yields levels conservative limited short := by
    refine (yields_operand limited).mono fun expr fine => ?_
    have factor := Nat.mul_le_mul_left run (Nat.add_le_add_right short 1)
    omega

theorem operands_disjunction :
    Operands run bound n (bound + run * (n + 1) + n + 2 + n + n + n + n + n + n) disjunction :=
  have product := operands_operand.chain (adds_binaryJoint [.multiply, .divide, .remainder])
  have sum := product.chain (adds_binaryJoint [.add, .subtract])
  have comparison := sum.chain (adds_binaryJoint [.less, .lessEqual, .greater, .greaterEqual])
  have equality := comparison.chain
    (adds_binaryJoint [.looseEqual, .looseNotEqual, .strictEqual, .strictNotEqual])
  (equality.chain (adds_logicalJoint .and)).chain (adds_logicalJoint .or)

section

variable [ConservativeLevels levels]

theorem yields_assignment (limited : Limited run bound levels) :
    Yields run (assignment levels)
      (·.height ≤ bound + (run + 7) * (levels.length + 1)) := by
  have room : bound + run * (levels.length + 1) + 7 * levels.length + 7 =
      bound + (run + 7) * (levels.length + 1) := by
    rw [Nat.add_mul]
    omega
  have first := operands_disjunction.yields levels limited (Nat.le_refl _)
  unfold assignment
  refine .bind first fun target fine => .behind fun token => ?_
  cases assignOp? token with
  | none => exact .pure (by omega)
  | some op =>
    refine .ite (.behind fun _ => ?_) .failHere
    have nested : Yields run (levels.deeper (·.expression)) (·.height ≤ bound) :=
      limited.nestedExpression
    refine .map nested fun value fine' => ?_
    simp only [Expr.height]
    omega

/-! ### Statements -/

theorem yields_parenthesizedExpression (limited : Limited run bound levels) :
    Yields run (parenthesizedExpression levels) (·.height ≤ bound) := by
  unfold parenthesizedExpression
  refine .behind fun _ => .bind limited.nestedExpression fun expr fine => ?_
  exact .behind fun _ => .pure fine

theorem yields_declaration (limited : Limited run bound levels) :
    Yields run (declaration levels) (·.height ≤ bound + 1) := by
  unfold declaration
  refine .behind fun keyword => .behind fun name => .behind fun gives => .ite ?_ (.ite .failHere ?_)
  · exact .map limited.nestedExpression fun value fine => Nat.succ_le_succ fine
  · exact .pure (Nat.succ_le_succ (Nat.zero_le _))

theorem yields_functionDeclaration (limited : Limited run bound levels) :
    Yields run (functionDeclaration levels) (·.height ≤ bound + 1) := by
  unfold functionDeclaration
  refine .behind fun keyword => .behind fun name => ?_
  exact .map (yields_functionFrom limited keyword _) fun f fine => Nat.succ_le_succ fine

theorem yields_conditional (limited : Limited run bound levels) :
    Yields run (conditional levels) (·.height ≤ bound + 1) := by
  have further : Yields run (levels.deeper (·.conditional)) (·.height ≤ bound) :=
    yields_deeper fun rules mem => (limited rules mem).conditional
  have node {test : Expr} {consequent : Stmt} (first : test.height ≤ bound)
      (second : consequent.height ≤ bound) {alternate : Option Stmt}
      (third : Stmt.heightOf? alternate ≤ bound) :
      (Stmt.conditional test consequent alternate).height ≤ bound + 1 :=
    Nat.succ_le_succ (Nat.max_le.mpr ⟨Nat.max_le.mpr ⟨first, second⟩, third⟩)
  unfold conditional
  refine .behind fun _ => .bind (yields_parenthesizedExpression limited) fun test first => ?_
  refine .bind limited.nestedStatement fun consequent second => .behind fun token => ?_
  refine .ite (.behind fun _ => ?_) (.ite ?_ ?_)
  · exact .map limited.nestedStatement fun alternate third => node first second third
  · exact .map further fun alternate third => node first second third
  · exact .pure (node first second (Nat.zero_le _))

omit [ConservativeLevels levels] in
theorem yields_loopBody (limited : Limited run bound levels) :
    Yields run (loopBody levels) (·.height ≤ bound) := .surroundedBy limited.nestedStatement

theorem yields_whileLoop (limited : Limited run bound levels) :
    Yields run (whileLoop levels) (·.height ≤ bound + 1) := by
  unfold whileLoop
  refine .behind fun _ => .bind (yields_parenthesizedExpression limited) fun test first => ?_
  exact .map (yields_loopBody limited) fun body second =>
    Nat.succ_le_succ (Nat.max_le.mpr ⟨first, second⟩)

theorem yields_doWhileLoop (limited : Limited run bound levels) :
    Yields run (doWhileLoop levels) (·.height ≤ bound + 1) := by
  unfold doWhileLoop
  refine .behind fun _ => .bind (yields_loopBody limited) fun body first => .behind fun _ => ?_
  exact .map (yields_parenthesizedExpression limited) fun test second =>
    Nat.succ_le_succ (Nat.max_le.mpr ⟨first, second⟩)

theorem yields_loopStart (limited : Limited run bound levels) :
    Yields run (loopStart levels) (Stmt.heightOf? · ≤ bound + 1) := by
  unfold loopStart
  refine .behind fun token => .ite (.pure (Nat.zero_le _)) (.ite ?_ ?_)
  · exact .map (yields_declaration limited) fun start fine => fine
  · exact .map limited.nestedExpression fun expr fine => Nat.succ_le_succ fine

theorem yields_expressionUnless (limited : Limited run bound levels) (sign : Char) :
    Yields run (expressionUnless levels sign) (Expr.heightOf? · ≤ bound) := by
  unfold expressionUnless
  refine .behind fun token => .ite (.pure (Nat.zero_le _)) ?_
  exact .map limited.nestedExpression fun expr fine => fine

theorem yields_forLoop (limited : Limited run bound levels) :
    Yields run (forLoop levels) (·.height ≤ bound + 2) := by
  unfold forLoop
  refine .behind fun _ => .behind fun _ => .bind (yields_loopStart limited) fun start first => ?_
  refine .behind fun _ => .bind (yields_expressionUnless limited _) fun test second => ?_
  refine .behind fun _ => .bind (yields_expressionUnless limited _) fun update third => ?_
  refine .behind fun _ => .map (yields_loopBody limited) fun body fourth => ?_
  simp only [Stmt.height]
  omega

theorem yields_handler (limited : Limited run bound levels) :
    Yields run (handler levels) (Stmt.heightOfHandler? · ≤ bound) := by
  unfold handler
  refine .behind fun begins => .ite ?_ (.pure (Nat.zero_le _))
  refine .behind fun _ => .behind fun name => .behind fun _ => ?_
  exact .map (yields_block limited) fun body fine => fine

theorem yields_finalizer (limited : Limited run bound levels) :
    Yields run (finalizer levels) (Stmt.heightOfBody? · ≤ bound) := by
  unfold finalizer
  refine .behind fun begins => .ite ?_ (.pure (Nat.zero_le _))
  exact .map (yields_block limited) fun body fine => fine

theorem yields_attempt (limited : Limited run bound levels) :
    Yields run (attempt levels) (·.height ≤ bound + 1) := by
  unfold attempt
  refine .behind fun _ => .bind (yields_block limited) fun body first => ?_
  refine .bind (yields_handler limited) fun handler second => ?_
  refine .bind (yields_finalizer limited) fun finalizer third => .ite .failHere (.pure ?_)
  exact Nat.succ_le_succ (Nat.max_le.mpr ⟨Nat.max_le.mpr ⟨first, second⟩, third⟩)

theorem yields_clauseFrom (limited : Limited run bound levels) {test : Option Expr}
    (fine : Expr.heightOf? test ≤ bound) :
    Yields run (clauseFrom levels test) (·.height ≤ bound) := by
  unfold clauseFrom
  refine .behind fun _ => .map (.surroundedBy (?_ : Yields run _ (Stmt.heightOfAll · ≤ bound))) ?_
  · exact .behind fun limit => yields_items limited _ limit
  · exact fun body fine' => Nat.max_le.mpr ⟨fine, fine'⟩

theorem yields_clauses (limited : Limited run bound levels) (hasDefault : Bool) (limit : Nat) :
    Yields run (clauses levels hasDefault limit) (Case.heightOfAll · ≤ bound) := by
  induction limit generalizing hasDefault with
  | zero => exact .pure (Nat.zero_le _)
  | succ limit ih =>
    have rest {first : Case} (fine : first.height ≤ bound) (hasDefault : Bool) :
        Yields run (do
          let others ← clauses levels hasDefault limit
          pure (first :: others) : Parse (List Case)) (Case.heightOfAll · ≤ bound) :=
      .map (ih hasDefault) fun others fine' => Nat.max_le.mpr ⟨fine, fine'⟩
    have default : Yields run (do
        let first ← clauseFrom levels none
        let others ← clauses levels true limit
        pure (first :: others) : Parse (List Case)) (Case.heightOfAll · ≤ bound) :=
      .bind (yields_clauseFrom limited (Nat.zero_le _)) fun first fine => rest fine true
    unfold clauses
    refine .behind fun token => .ite (.behind fun _ => ?_) (.ite (.behind fun _ => ?_) (.ite ?_ ?_))
    · refine .bind limited.nestedExpression fun test fine => ?_
      exact .bind (yields_clauseFrom limited fine) fun first fine => rest fine hasDefault
    · exact .ite (.behind fun _ => default) default
    · exact .pure (Nat.zero_le _)
    · exact .behind fun _ => .behind fun count => .behind fun _ => ih hasDefault

theorem yields_choice (limited : Limited run bound levels) :
    Yields run (choice levels) (·.height ≤ bound + 1) := by
  unfold choice
  refine .behind fun _ => .bind (yields_parenthesizedExpression limited) fun subject first => ?_
  refine .behind fun _ => .behind fun limit => ?_
  refine .bind (yields_clauses limited false limit) fun cases second => .behind fun _ => .pure ?_
  exact Nat.succ_le_succ (Nat.max_le.mpr ⟨first, second⟩)

theorem yields_giveBack (limited : Limited run bound levels) :
    Yields run (giveBack levels) (·.height ≤ bound + 1) := by
  unfold giveBack
  refine .behind fun keyword => .behind fun stream => .ite ?_ .failAt
  exact .map (yields_expressionUnless limited _) fun value fine => Nat.succ_le_succ fine

theorem yields_leave : Yields run leave (·.height ≤ bound + 1) := by
  unfold leave
  exact .behind fun keyword => .behind fun stream => .ite .failAt (.pure (Nat.le_add_left _ _))

theorem yields_next : Yields run next (·.height ≤ bound + 1) := by
  unfold next
  exact .behind fun keyword => .behind fun stream => .ite .failAt (.pure (Nat.le_add_left _ _))

theorem yields_terminated {rule : Parse Stmt} [Conservative rule] {good : Stmt → Prop}
    (h : Yields run rule good) : Yields run (terminated rule) good :=
  .bind h fun _ fine => .behind fun _ => .pure fine

theorem yields_evaluation (limited : Limited run bound levels) :
    Yields run (evaluation levels) (·.height ≤ bound + 1) :=
  .map limited.nestedExpression fun _ fine => Nat.succ_le_succ fine

theorem yields_statement (limited : Limited run bound levels) :
    Yields run (statement levels) (·.height ≤ bound + 2) := by
  have fits {rule : Parse Stmt} (h : Yields run rule (·.height ≤ bound + 1)) :
      Yields run rule (·.height ≤ bound + 2) := h.mono fun stmt fine => Nat.le_succ_of_le fine
  unfold statement
  refine .behind fun token => .ite ?_ (.ite (.behind fun _ => .pure (Nat.le_add_left _ _)) ?_)
  · exact fits (.map (yields_block limited) fun body fine => Nat.succ_le_succ fine)
  · split
    · exact fits (yields_terminated (yields_declaration limited))
    · exact fits (yields_terminated (yields_declaration limited))
    · exact fits (yields_functionDeclaration limited)
    · exact fits (yields_conditional limited)
    · exact fits (yields_whileLoop limited)
    · exact yields_forLoop limited
    · exact fits (yields_attempt limited)
    · exact fits (yields_choice limited)
    · exact fits (yields_terminated (yields_doWhileLoop limited))
    · exact fits (yields_terminated (yields_giveBack limited))
    · exact fits (yields_terminated yields_leave)
    · exact fits (yields_terminated yields_next)
    · exact fits (yields_terminated (yields_evaluation limited))

end

/-- How high what is read with this number of levels left can be if no more constructing keywords
than these stand in a row. -/
def heightBound (run : Nat) : Nat → Nat
  | 0 => 0
  | n + 1 => heightBound run n + (run + 7) * (n + 1)

theorem heightBound_eq (run n : Nat) : heightBound run n = (run + 7) * (n * (n + 1) / 2) := by
  induction n with
  | zero => rfl
  | succ n ih =>
    have next : (n + 1) * (n + 1 + 1) = n * (n + 1) + (n + 1) * 2 := by ring
    rw [heightBound, ih, next, Nat.add_mul_div_right _ _ (by decide), ← Nat.mul_add]

theorem LimitedRules.mono {rules : Rules} {bound' : Nat} (h : LimitedRules run bound rules)
    (le : bound ≤ bound') : LimitedRules run bound' rules where
  statement := h.statement.mono fun _ fine => Nat.le_trans fine le
  conditional := h.conditional.mono fun _ fine => Nat.le_trans fine le
  expression := h.expression.mono fun _ fine => Nat.le_trans fine le
  operand := h.operand.mono fun _ fine => Nat.le_trans fine le

theorem limitedRules_rules [ConservativeLevels levels] (limited : Limited run bound levels) :
    LimitedRules run (bound + (run + 7) * (levels.length + 1)) (rules levels) := by
  have room : bound + run * (levels.length + 1) + 7 * levels.length + 7 =
      bound + (run + 7) * (levels.length + 1) := by
    rw [Nat.add_mul]
    omega
  exact
    { statement := (yields_statement limited).mono fun _ fine => by omega
      conditional := (yields_conditional limited).mono fun _ fine => by omega
      expression := yields_assignment limited
      operand := (yields_operand limited).mono fun _ fine => by omega }

theorem limited_levels (run n : Nat) : Limited run (heightBound run n) (Grammar.levels n) := by
  induction n with
  | zero => exact List.forall_mem_nil _
  | succ n ih =>
    refine List.forall_mem_cons.mpr ⟨?_, fun rules mem => ?_⟩
    · have own := limitedRules_rules ih
      rwa [length_levels] at own
    · exact (ih rules mem).mono (Nat.le_add_right _ _)

end Grammar

/-- **Nesting is bounded up to constructing keywords.** The height of a program that is read is at
most a multiple of the square of the levels, by a factor that grows only with the constructing
keywords in a row; and tokens that write a program higher than this are not read: their first error is
that the levels of nesting ran out. -/
theorem nesting_bounded (tokens : List Token) (source : Nat) :
    (∀ program, parse tokens source = .ok program → Stmt.heightOfAll program ≤
        (constructorRun tokens + 7) * (maxLevels * (maxLevels + 1) / 2)) ∧
      ∀ body ending program, tokens = body ++ [ending] → ending.isEnd = true →
        Phrase.Program source body program →
          (constructorRun tokens + 7) * (maxLevels * (maxLevels + 1) / 2) <
            Stmt.heightOfAll program →
          ∃ error others, parse tokens source = .error (error :: others) ∧
            error.isTooDeep = true := by
  have bounded : ∀ program, parse tokens source = .ok program → Stmt.heightOfAll program ≤
      (constructorRun tokens + 7) * (maxLevels * (maxLevels + 1) / 2) := by
    intro program read
    have all := yields_items (limited_levels (constructorRun tokens) maxLevels) (fun _ => false)
      tokens.length
    rw [heightBound_eq] at all
    unfold parse at read
    split at read
    · next stmts after result =>
      split at read
      · cases read
        exact all _ _ _ (Nat.le_refl _) result
      · cases read
    · cases read
  refine ⟨bounded, fun body ending program eq ends written high => ?_⟩
  subst eq
  rcases parse_complete ends written with read | deep
  · exact absurd (bounded program read) (Nat.not_le.mpr high)
  · exact deep

/-! ### Constructing keywords in a row -/

/-- The construction of an object by the constructing of an object, and so on. -/
def constructions : Nat → Expr
  | 0 => .identifier ⟨"x", .unknown⟩
  | n + 1 => .construct (constructions n) [] .unknown

theorem height_constructions (n : Nat) : (constructions n).height = n + 1 := by
  induction n with
  | zero => rfl
  | succ n ih => simp [constructions, Expr.height, Expr.heightOfAll, ih]

/-- A constructing keyword. -/
def constructing : Token := ⟨.keyword, "jdid", .unknown, 0, 0⟩

/-- A semicolon and the end of the file. -/
def closing : List Token := [⟨.punctuation, ";", .unknown, 0, 0⟩, Stream.endToken]

/-- Constructing keywords in a row, and a name. -/
def constructionTokens (n : Nat) : List Token :=
  List.replicate n constructing ++ ⟨.identifier, "x", .unknown, 0, 0⟩ :: closing

section

variable {source : Nat} {around : Surroundings} {levels : Levels}

/-- A chain without a link. -/
theorem gives_chain {tokens rest : List Token} {expr : Expr} {joint : Joint}
    {operand : Levels → Parse Expr} (first : Gives around source (operand levels) tokens expr rest)
    (none : joint (headOf rest) = none) :
    Gives around source (chain joint operand levels) tokens expr rest := by
  refine .step first ?_
  cases levels with
  | nil =>
    unfold chainFrom
    rw [gives_peek_bind, none]
    exact gives_pure.mpr ⟨rfl, rfl⟩
  | cons rules levels =>
    unfold chainFrom
    rw [gives_peek_bind, none]
    exact gives_pure.mpr ⟨rfl, rfl⟩

theorem gives_constructFrom (callee : Expr) :
    Gives around source (constructFrom levels constructing callee) closing
      (.construct callee [] .unknown) closing := by
  have members : Gives around source (membersFrom levels callee) closing callee closing := by
    cases levels
    all_goals
      unfold membersFrom
      rw [gives_peek_bind, if_neg (by decide)]
      exact gives_pure.mpr ⟨rfl, rfl⟩
  refine .step members ?_
  rw [gives_peek_bind, if_neg (by decide)]
  exact gives_pure.mpr ⟨rfl, rfl⟩

theorem gives_constructors_in_row (n : Nat) :
    Gives around source constructors (constructionTokens n) (List.replicate n constructing)
      (⟨.identifier, "x", .unknown, 0, 0⟩ :: closing) := by
  have all : ∀ token ∈ List.replicate n constructing, token.isKeyword .jdid = true := by
    intro token mem
    rw [List.eq_of_mem_replicate mem]
    rfl
  exact gives_constructors.mpr ⟨rfl, all, rfl⟩

theorem gives_primary (n : Nat) :
    Gives around source (primary levels) (constructionTokens n) (constructions n) closing := by
  have name : Gives around source (atom levels) (⟨.identifier, "x", .unknown, 0, 0⟩ :: closing)
      (constructions 0) closing := by
    unfold Gives
    rfl
  have built : Gives around source
      ((List.replicate n constructing).foldrM (constructFrom levels) (constructions 0)) closing
      (constructions n) closing := by
    induction n with
    | zero => exact gives_pure.mpr ⟨rfl, rfl⟩
    | succ n ih =>
      rw [List.replicate_succ, List.foldrM_cons]
      exact .step ih (gives_constructFrom (constructions n))
  exact .step (gives_constructors_in_row n) (.step name built)

theorem gives_assignment (n : Nat) :
    Gives around source (assignment levels) (constructionTokens (n + 1)) (constructions (n + 1))
      closing := by
  have calls : Gives around source (callsFrom levels (constructions (n + 1))) closing
      (constructions (n + 1)) closing := by
    cases levels with
    | nil =>
      unfold callsFrom
      rw [gives_peek_bind, if_neg (by decide)]
      exact gives_pure.mpr ⟨rfl, rfl⟩
    | cons rules levels =>
      unfold callsFrom
      rw [gives_peek_bind, if_neg (by decide), if_neg (by decide)]
      exact gives_pure.mpr ⟨rfl, rfl⟩
  have updated : Gives around source (updated levels) (constructionTokens (n + 1))
      (constructions (n + 1)) closing :=
    .step (gives_primary (n + 1)) (.step calls (gives_pure.mpr ⟨rfl, rfl⟩))
  have operand : Gives around source (operand levels) (constructionTokens (n + 1))
      (constructions (n + 1)) closing := updated
  have all : Gives around source (disjunction levels) (constructionTokens (n + 1))
      (constructions (n + 1)) closing := by
    unfold disjunction conjunction equality comparison sum product
    iterate 6 refine gives_chain ?_ rfl
    exact operand
  exact .step all (gives_pure.mpr ⟨rfl, rfl⟩)

theorem gives_statement (n : Nat) :
    Gives around source (nestedStatement (Grammar.levels maxLevels)) (constructionTokens (n + 1))
      (.evaluate (constructions (n + 1))) [Stream.endToken] := by
  have inside : Gives around source (evaluation (Grammar.levels 63)) (constructionTokens (n + 1))
      (.evaluate (constructions (n + 1))) closing :=
    .step (gives_assignment n) (gives_pure.mpr ⟨rfl, rfl⟩)
  have whole : Gives around source (terminated (evaluation (Grammar.levels 63)))
      (constructionTokens (n + 1)) (.evaluate (constructions (n + 1))) [Stream.endToken] :=
    gives_terminated.mpr ⟨closing, _, inside, rfl, rfl⟩
  exact whole

end

/-- No bound holds for all programs that are read: constructing keywords in a row take no level. -/
theorem nesting_unbounded (bound : Nat) :
    ∃ tokens program, parse tokens 0 = .ok program ∧ bound < Stmt.heightOfAll program := by
  have read : items (Grammar.levels maxLevels) (fun _ => false)
      (constructionTokens (bound + 1)).length (.ofTokens (constructionTokens (bound + 1)) 0) =
        .ok [.evaluate (constructions (bound + 1))] (.fresh .none 0 [Stream.endToken]) := by
    have goesOn : ((Stream.ofTokens (constructionTokens (bound + 1)) 0).head.isEnd || false) =
        false := rfl
    have first : (Grammar.levels maxLevels).deeper (·.statement)
        (.ofTokens (constructionTokens (bound + 1)) 0) = .ok _ (.fresh .none 0 _) :=
      gives_statement bound
    have length : (constructionTokens (bound + 1)).length = bound + 3 + 1 := by
      simp [constructionTokens, closing]
    rw [length, items_of_ok goesOn first, bind_of_ok (items_of_stop rfl)]
    rfl
  refine ⟨constructionTokens (bound + 1), [.evaluate (constructions (bound + 1))], ?_, ?_⟩
  · unfold parse
    rw [read]
    rfl
  · simp [Stmt.heightOfAll, Stmt.height, height_constructions]
    omega

end DarijaScript
