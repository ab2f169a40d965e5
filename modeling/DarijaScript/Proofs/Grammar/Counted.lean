import DarijaScript.Proofs.Grammar.Recovery
import DarijaScript.Proofs.Grammar.Counter

/-!
# The counter stands for the levels that are left

At every depth the counting rules read as the rules do that are given the levels that are left there.
A rule that succeeds has closed the levels it opened, and one that fails may leave some of them open,
which the nested rule around it closes. The class `Counts` is closed under the steps that rules are
made of, so for most rules instance search finds it from the two texts. Only chains are looked at
closely, since they change the counter on the way.
-/

set_option synthInstance.maxSize 1000

namespace DarijaScript

open Parse

/-! ### Constructions in a row -/

namespace Grammar

variable {stream : Stream}

theorem rest_of_isKeyword {keyword : Keyword} (word : stream.head.isKeyword keyword = true) :
    stream.rest = stream.head :: stream.tail.rest ∧ stream.tail = stream.skip 1 := by
  have notEnd := Token.isEnd_of_isKeyword word
  have passed : stream.tail = stream.skip 1 := by
    unfold Stream.tail
    rw [if_neg (by simp [notEnd])]
  refine ⟨?_, passed⟩
  rw [passed]
  cases eq : stream.rest with
  | nil =>
    unfold Stream.head at notEnd
    rw [eq] at notEnd
    cases notEnd
  | cons token rest => simp [Stream.head, Stream.skip, eq]

theorem constructors_of_isKeyword (word : stream.head.isKeyword .jdid = true) :
    ∃ keywords mid, constructors stream.tail = .ok keywords mid ∧
      constructors stream = .ok (stream.head :: keywords) mid := by
  obtain ⟨rest, passed⟩ := rest_of_isKeyword word
  refine ⟨_, _, rfl, ?_⟩
  unfold constructors
  rw [rest, passed]
  simp [word, Stream.skip, Nat.sub_sub, Nat.add_comm]

theorem constructors_of_isKeyword_eq_false (other : stream.head.isKeyword .jdid = false) :
    constructors stream = .ok [] stream := by
  have none : stream.rest.takeWhile (·.isKeyword .jdid) = [] := by
    cases eq : stream.rest with
    | nil => rfl
    | cons token rest =>
      rw [Stream.head, eq] at other
      exact List.takeWhile_cons_of_neg (by simpa using other)
  unfold constructors
  rw [none]
  rfl

theorem primary_of_isKeyword_eq_false {levels : Levels}
    (other : stream.head.isKeyword .jdid = false) :
    primary levels stream = atom levels stream := by
  have none := constructors_of_isKeyword_eq_false other
  unfold primary
  simp only [bind_apply, none, List.foldrM_nil]
  cases atom levels stream <;> rfl

/-- A keyword that constructs an object takes one primary expression as the constructor. -/
theorem primary_eq (levels : Levels) : primary levels = (do
    let keyword ← peek
    if keyword.isKeyword .jdid then
      let _ ← advance
      let callee ← primary levels
      constructFrom levels keyword callee
    else atom levels : Parse Expr) := by
  funext stream
  rw [bind_apply]
  dsimp only [peek]
  split
  · next word =>
    obtain ⟨keywords, mid, behind, all⟩ := constructors_of_isKeyword word
    have passed : advance stream = .ok stream.head stream.tail := rfl
    unfold primary
    simp only [bind_apply, all, passed, behind, List.foldrM_cons]
    cases atom levels mid <;> rfl
  · next other => exact primary_of_isKeyword_eq_false (by simpa using other)

end Grammar

namespace Counting

variable {α β : Type} {depth before middle after : Nat} {stream : Stream}

/-! ### Steps -/

/-- The result of a rule with the levels put to it that are open when it succeeds and when it fails. -/
def putDepth (success failure : Nat) :
    EStateM.Result SyntaxError Stream α → EStateM.Result SyntaxError Reader α
  | .ok a after => .ok a ⟨after, success⟩
  | .error error after => .error error ⟨after, failure⟩

/-- Beginning with `before` open levels the counting rule reads from a stream as the other one does, and
`after` levels are open if it succeeds. -/
def Tracks (stream : Stream) (before after : Nat) (counted : Counting α) (rule : Parse α) : Prop :=
  ∃ failure, counted ⟨stream, before⟩ = putDepth after failure (rule stream)

/-- At this depth the counting rule reads as the other one does, and if it succeeds it has closed the
levels that it opened. -/
class Counts (depth : Nat) (counted : Counting α) (rule : Parse α) : Prop where
  tracks : ∀ stream, Tracks stream depth depth counted rule

/-- At this depth the counting rule reads as the other one does, and whether it succeeds or fails it has
closed the levels that it opened. -/
class Restores (depth : Nat) (counted : Counting α) (rule : Parse α) : Prop where
  apply_eq : ∀ stream, counted ⟨stream, depth⟩ = putDepth depth depth (rule stream)

instance (counted : Counting α) (rule : Parse α) [restores : Restores depth counted rule] :
    Counts depth counted rule :=
  ⟨fun stream => ⟨depth, restores.apply_eq stream⟩⟩

theorem bind_apply (counted : Counting α) (next : α → Counting β) (reader : Reader) :
    (counted >>= next) reader =
      match counted reader with
      | .ok a reader => next a reader
      | .error error reader => .error error reader := by
  change EStateM.bind counted next reader = _
  unfold EStateM.bind
  cases counted reader <;> rfl

theorem Tracks.bind {counted : Counting α} {rule : Parse α} {next : α → Counting β}
    {next' : α → Parse β} (first : Tracks stream before middle counted rule)
    (rest : ∀ a mid, rule stream = .ok a mid → Tracks mid middle after (next a) (next' a)) :
    Tracks stream before after (counted >>= next) (rule >>= next') := by
  obtain ⟨failure, eq⟩ := first
  unfold Tracks
  rw [bind_apply, Parse.bind_apply, eq]
  cases h : rule stream with
  | ok a mid => exact rest a mid h
  | error error mid => exact ⟨failure, rfl⟩

theorem restores_liftM (rule : Parse α) : Restores depth (liftM rule : Counting α) rule where
  apply_eq stream := by
    change lift rule ⟨stream, depth⟩ = _
    unfold lift
    cases rule stream <;> rfl

instance (rule : Parse α) : Counts depth (liftM rule : Counting α) rule :=
  ⟨fun stream => ⟨depth, (restores_liftM rule).apply_eq stream⟩⟩

instance (a : α) : Counts depth (pure a : Counting α) (pure a) :=
  ⟨fun _ => ⟨depth, rfl⟩⟩

instance counts_bind (counted : Counting α) (rule : Parse α) (next : α → Counting β)
    (next' : α → Parse β) [first : Counts depth counted rule]
    [rest : ∀ a, Counts depth (next a) (next' a)] :
    Counts depth (counted >>= next) (rule >>= next') :=
  ⟨fun stream => (first.tracks stream).bind fun a mid _ => (rest a).tracks mid⟩

instance counts_ite (condition : Prop) [Decidable condition] (counted counted' : Counting α)
    (rule rule' : Parse α) [first : Counts depth counted rule]
    [second : Counts depth counted' rule'] :
    Counts depth (if condition then counted else counted')
      (if condition then rule else rule') := by
  split
  · exact first
  · exact second

instance (counted : Counting α) (rule : Parse α) [restores : Restores depth counted rule] :
    Counts depth (outcome counted) (Parse.outcome rule) where
  tracks stream := by
    refine ⟨depth, ?_⟩
    unfold outcome Parse.outcome
    rw [restores.apply_eq]
    cases rule stream <;> rfl

/-- What is put around before a rule and taken away behind it is as if the former surroundings had been
kept aside. -/
theorem tracks_between {enter leave : Surroundings → Surroundings} (counted : Counting α)
    (rule : Parse α) [Conservative rule] [counts : Counts depth counted rule]
    (back : leave (enter stream.surroundings) = stream.surroundings) :
    Tracks stream depth depth (between enter leave counted) (surroundedBy enter rule) := by
  obtain ⟨failure, eq⟩ := counts.tracks { stream with surroundings := enter stream.surroundings }
  refine ⟨failure, ?_⟩
  unfold between surroundedBy
  dsimp only
  rw [eq]
  cases h : rule { stream with surroundings := enter stream.surroundings } with
  | ok a mid =>
    have kept : mid.surroundings = enter stream.surroundings := (Conservative.ok h).surroundings
    simp only [putDepth, kept, back]
  | error error mid =>
    have kept : mid.surroundings = enter stream.surroundings := (Conservative.error h).surroundings
    simp only [putDepth, kept, back]

instance (counted : Counting α) (rule : Parse α) [Conservative rule]
    [Counts depth counted rule] :
    Counts depth (inLoop counted)
      (surroundedBy (fun around => { around with loops := around.loops + 1 }) rule) :=
  ⟨fun _ => tracks_between counted rule rfl⟩

instance (counted : Counting α) (rule : Parse α) [Conservative rule]
    [Counts depth counted rule] :
    Counts depth (inChoice counted)
      (surroundedBy (fun around => { around with choices := around.choices + 1 }) rule) :=
  ⟨fun _ => tracks_between counted rule rfl⟩

instance (counted : Counting α) (rule : Parse α) [Conservative rule]
    [Counts depth counted rule] :
    Counts depth (inFunction counted) (surroundedBy (fun _ => ⟨0, 0, true⟩) rule) :=
  ⟨fun _ => tracks_between counted rule rfl⟩

instance (thing : Counting α) (thing' : Parse α) [Counts depth thing thing'] (close : Char)
    (limit : Nat) :
    Counts depth (separated thing close limit) (Parse.separated thing' close limit) := by
  induction limit with
  | zero => unfold separated Parse.separated; infer_instance
  | succ limit ih => unfold separated Parse.separated; infer_instance

instance (thing : Counting α) (thing' : Parse α) [Counts depth thing thing'] (limit : Nat) :
    Counts depth (separatedTight thing limit) (Parse.separatedTight thing' limit) := by
  induction limit with
  | zero => unfold separatedTight Parse.separatedTight; infer_instance
  | succ limit ih => unfold separatedTight Parse.separatedTight; infer_instance

/-! ### Levels -/

/-- The levels that are left at a depth. -/
def levelsLeft (depth : Nat) : Levels := Grammar.levels (maxLevels - depth)

instance : Grammar.ConservativeLevels (levelsLeft depth) :=
  inferInstanceAs (Grammar.ConservativeLevels (Grammar.levels _))

theorem levelsLeft_of_le (none : maxLevels ≤ depth) : levelsLeft depth = [] := by
  unfold levelsLeft
  rw [Nat.sub_eq_zero_of_le none]
  rfl

theorem levelsLeft_of_lt (some : depth < maxLevels) :
    levelsLeft depth = Grammar.rules (levelsLeft (depth + 1)) :: levelsLeft (depth + 1) := by
  unfold levelsLeft
  rw [show maxLevels - depth = maxLevels - (depth + 1) + 1 by omega]
  rfl

/-- The counting rules read at a depth as the others do. -/
structure CountsRules (depth : Nat) (rules : Rules) (rules' : DarijaScript.Rules) : Prop where
  statement : Counts depth rules.statement rules'.statement
  conditional : Counts depth rules.conditional rules'.conditional
  expression : Counts depth rules.expression rules'.expression
  operand : Counts depth rules.operand rules'.operand

/-- At every depth behind this one the counting rules read as those do that are next there. -/
class Serves (depth : Nat) (rules : Rules) : Prop where
  counts : ∀ inner, depth < inner → inner ≤ maxLevels →
    CountsRules inner rules (Grammar.rules (levelsLeft inner))

theorem Serves.mono {rules : Rules} (serves : Serves depth rules) (le : depth ≤ after) :
    Serves after rules :=
  ⟨fun inner lt => serves.counts inner (by omega)⟩

theorem restores_nested {counted : Counting α} {rule : DarijaScript.Rules → Parse α}
    (counts : depth < maxLevels →
      Counts (depth + 1) counted (rule (Grammar.rules (levelsLeft (depth + 1))))) :
    Restores depth (nested counted) ((levelsLeft depth).deeper rule) where
  apply_eq stream := by
    unfold nested
    split
    · next none =>
      rw [levelsLeft_of_le none]
      exact (restores_liftM (failHere .nestingTooDeep)).apply_eq stream
    · next none =>
      have some : depth < maxLevels := Nat.lt_of_not_le none
      obtain ⟨failure, eq⟩ := (counts some).tracks stream
      rw [levelsLeft_of_lt some]
      dsimp only [Levels.deeper]
      -- The levels that a failed chain left open are closed with this one.
      rw [eq]
      cases rule (Grammar.rules (levelsLeft (depth + 1))) stream <;> rfl

/-! ### Chains -/

section

variable {links : Nat} {next : Counting α} {rule : Parse α}

/-- A chain that is complete closes the levels of its links. -/
theorem tracks_release (a : α) :
    Tracks stream (depth + links) depth (do release links; pure a) (pure a) := by
  refine ⟨depth, ?_⟩
  rw [bind_apply]
  change EStateM.Result.ok a (⟨stream, depth + links - links⟩ : Reader) = .ok a ⟨stream, depth⟩
  rw [Nat.add_sub_cancel]

/-- A further link takes a level that is left. -/
theorem tracks_deepen (some : depth + links < maxLevels)
    (rest : Tracks stream (depth + (links + 1)) after next rule) :
    Tracks stream (depth + links) after (do deepen; next) rule := by
  obtain ⟨failure, eq⟩ := rest
  refine ⟨failure, ?_⟩
  rw [bind_apply]
  unfold deepen
  rw [if_neg (Nat.not_le_of_lt some)]
  exact eq

/-- Without a level left there is no further link. -/
theorem tracks_deepen_of_le (none : maxLevels ≤ depth + links) :
    Tracks stream (depth + links) after (do deepen; next) (failHere .nestingTooDeep) := by
  refine ⟨depth + links, ?_⟩
  rw [bind_apply]
  unfold deepen
  rw [if_pos none]
  rfl

end

/-- The operand of a chain reads at this depth and behind it as the other one does. -/
def CountsFrom (depth : Nat) (operand : Counting Expr) (operand' : Levels → Parse Expr) : Prop :=
  ∀ inner, depth ≤ inner → Counts inner operand (operand' (levelsLeft inner))

/-- With `links` levels open, a chain reads on as the one with so many levels fewer left, and it closes
them all if it succeeds. -/
theorem tracks_chainFrom {joint : Grammar.Joint} {operand : Counting Expr}
    {operand' : Levels → Parse Expr} (operands : CountsFrom depth operand operand')
    {limit links : Nat} (enough : maxLevels - (depth + links) < limit) (left : Expr) :
    Tracks stream (depth + links) depth (chainFrom joint operand limit links left)
      (Grammar.chainFrom joint operand' (levelsLeft (depth + links)) left) := by
  -- A further link lowers the limit and the levels left by one, so the limit is never what ends it.
  induction limit generalizing links left stream with
  | zero => omega
  | succ limit ih =>
    unfold chainFrom
    by_cases some : depth + links < maxLevels
    · rw [levelsLeft_of_lt some]
      unfold Grammar.chainFrom
      refine (Counts.tracks stream).bind fun token mid _ => ?_
      cases joint token with
      | none => exact tracks_release left
      | some join =>
        refine (Counts.tracks mid).bind fun _ behind _ => tracks_deepen some ?_
        have right := operands (depth + (links + 1)) (by omega)
        exact (right.tracks behind).bind fun right mid _ => ih (by omega) (join left right)
    · rw [levelsLeft_of_le (Nat.le_of_not_lt some)]
      unfold Grammar.chainFrom
      refine (Counts.tracks stream).bind fun token mid _ => ?_
      cases joint token with
      | none => exact tracks_release left
      | some join =>
        exact (Counts.tracks mid).bind fun _ behind _ => tracks_deepen_of_le (Nat.le_of_not_lt some)

theorem countsFrom_chain (joint : Grammar.Joint) {operand : Counting Expr}
    {operand' : Levels → Parse Expr} (operands : CountsFrom depth operand operand') :
    CountsFrom depth (chain joint operand) (Grammar.chain joint operand') := by
  intro inner le
  refine ⟨fun stream => ?_⟩
  unfold chain Grammar.chain
  have inside : CountsFrom inner operand operand' := fun deeper le' => operands deeper (le.trans le')
  have := operands inner le
  exact (Counts.tracks stream).bind fun first mid _ => tracks_chainFrom inside (by omega) first

/-! ### Expressions -/

section

variable {rules : Rules}

instance [serves : Serves depth rules] :
    Restores depth (nestedExpression rules) (Grammar.nestedExpression (levelsLeft depth)) :=
  restores_nested fun lt => (serves.counts (depth + 1) (by omega) lt).expression

instance [serves : Serves depth rules] :
    Restores depth (nested rules.expression) ((levelsLeft depth).deeper (·.expression)) :=
  restores_nested fun lt => (serves.counts (depth + 1) (by omega) lt).expression

instance [serves : Serves depth rules] :
    Restores depth (nested rules.operand) ((levelsLeft depth).deeper (·.operand)) :=
  restores_nested fun lt => (serves.counts (depth + 1) (by omega) lt).operand

instance [serves : Serves depth rules] :
    Restores depth (nested rules.conditional) ((levelsLeft depth).deeper (·.conditional)) :=
  restores_nested fun lt => (serves.counts (depth + 1) (by omega) lt).conditional

instance [serves : Serves depth rules] :
    Restores depth (nestedStatement rules) ((levelsLeft depth).deeper (·.statement)) :=
  restores_nested fun lt => (serves.counts (depth + 1) (by omega) lt).statement

instance [Serves depth rules] (opening : Token) :
    Counts depth (arguments rules opening) (Grammar.arguments (levelsLeft depth) opening) := by
  unfold arguments Grammar.arguments
  infer_instance

instance [Serves depth rules] (owner : Expr) :
    Counts depth (memberOf rules owner) (Grammar.memberOf (levelsLeft depth) owner) := by
  unfold memberOf Grammar.memberOf
  infer_instance

theorem tracks_membersFrom (serves : Serves depth rules) {limit links : Nat}
    (enough : maxLevels - (depth + links) < limit) (owner : Expr) :
    Tracks stream (depth + links) depth (membersFrom rules limit links owner)
      (Grammar.membersFrom (levelsLeft (depth + links)) owner) := by
  induction limit generalizing links owner stream with
  | zero => omega
  | succ limit ih =>
    unfold membersFrom
    by_cases some : depth + links < maxLevels
    · rw [levelsLeft_of_lt some]
      unfold Grammar.membersFrom
      refine (Counts.tracks stream).bind fun token mid _ => ?_
      split
      · have := serves.mono (show depth ≤ depth + (links + 1) by omega)
        refine tracks_deepen some ?_
        exact (Counts.tracks mid).bind fun owner behind _ => ih (by omega) owner
      · exact tracks_release owner
    · rw [levelsLeft_of_le (Nat.le_of_not_lt some)]
      unfold Grammar.membersFrom
      refine (Counts.tracks stream).bind fun token mid _ => ?_
      split
      · exact tracks_deepen_of_le (Nat.le_of_not_lt some)
      · exact tracks_release owner

theorem tracks_callsFrom (serves : Serves depth rules) {limit links : Nat}
    (enough : maxLevels - (depth + links) < limit) (callee : Expr) :
    Tracks stream (depth + links) depth (callsFrom rules limit links callee)
      (Grammar.callsFrom (levelsLeft (depth + links)) callee) := by
  induction limit generalizing links callee stream with
  | zero => omega
  | succ limit ih =>
    unfold callsFrom
    by_cases some : depth + links < maxLevels
    · have := serves.mono (show depth ≤ depth + (links + 1) by omega)
      rw [levelsLeft_of_lt some]
      unfold Grammar.callsFrom
      refine (Counts.tracks stream).bind fun token mid _ => ?_
      split
      · refine tracks_deepen some ?_
        refine (Counts.tracks mid).bind fun _ behind _ => ?_
        exact (Counts.tracks behind).bind fun args after _ => ih (by omega) _
      · split
        · refine tracks_deepen some ?_
          exact (Counts.tracks mid).bind fun callee behind _ => ih (by omega) callee
        · exact tracks_release callee
    · have none := Nat.le_of_not_lt some
      rw [levelsLeft_of_le none]
      unfold Grammar.callsFrom
      refine (Counts.tracks stream).bind fun token mid _ => ?_
      -- Without a level left the other rule does not tell a call from a member.
      cases token.isPunctuation '(' with
      | true => exact tracks_deepen_of_le none
      | false =>
        simp only [Bool.false_or, Bool.false_eq_true, if_false]
        split
        · exact tracks_deepen_of_le none
        · exact tracks_release callee

instance [serves : Serves depth rules] (callee : Expr) :
    Counts depth (callsFrom rules (maxLevels + 1) 0 callee)
      (Grammar.callsFrom (levelsLeft depth) callee) :=
  ⟨fun _ => tracks_callsFrom serves (by omega) callee⟩

instance [serves : Serves depth rules] (owner : Expr) :
    Counts depth (membersFrom rules (maxLevels + 1) 0 owner)
      (Grammar.membersFrom (levelsLeft depth) owner) :=
  ⟨fun _ => tracks_membersFrom serves (by omega) owner⟩

instance [Serves depth rules] (stops : Token → Bool) (limit : Nat) :
    Counts depth (items rules stops limit) (Grammar.items (levelsLeft depth) stops limit) := by
  induction limit with
  | zero => unfold items Grammar.items; infer_instance
  | succ limit ih =>
    unfold items Grammar.items
    refine @counts_bind _ _ _ _ _ _ _ _ fun token => ?_
    split
    · infer_instance
    · refine @counts_bind _ _ _ _ _ _ _ _ fun before => ?_
      refine @counts_bind _ _ _ _ _ _ _ _ fun result => ?_
      cases result <;> infer_instance

instance [Serves depth rules] :
    Counts depth (block rules) (Grammar.block (levelsLeft depth)) := by
  unfold block Grammar.block
  infer_instance

instance [Serves depth rules] (opening : Token) (name : Option Identifier) :
    Counts depth (functionFrom rules opening name)
      (Grammar.functionFrom (levelsLeft depth) opening name) := by
  unfold functionFrom Grammar.functionFrom
  dsimp only
  infer_instance

instance [Serves depth rules] :
    Counts depth (entry rules) (Grammar.entry (levelsLeft depth)) := by
  unfold entry Grammar.entry
  refine @counts_bind _ _ _ _ _ _ _ _ fun token => ?_
  dsimp only
  cases token.kind with
  | number => cases Decimal.read? token.lexeme.toList <;> infer_instance
  | _ => infer_instance

instance [Serves depth rules] :
    Counts depth (atom rules) (Grammar.atom (levelsLeft depth)) := by
  unfold atom Grammar.atom
  refine @counts_bind _ _ _ _ _ _ _ _ fun token => ?_
  cases token.kind with
  | number => cases Decimal.read? token.lexeme.toList <;> infer_instance
  | keyword =>
    cases token.keyword? with
    | none => infer_instance
    | some word => cases word <;> infer_instance
  | _ => infer_instance

instance [Serves depth rules] (keyword : Token) (callee : Expr) :
    Counts depth (constructFrom rules keyword callee)
      (Grammar.constructFrom (levelsLeft depth) keyword callee) := by
  unfold constructFrom Grammar.constructFrom
  infer_instance

/-- As many tokens as are ahead are enough for the keywords in front of a primary expression. -/
theorem tracks_primaryFrom [Serves depth rules] {limit : Nat} (enough : stream.ahead ≤ limit) :
    Tracks stream depth depth (primaryFrom rules limit) (Grammar.primary (levelsLeft depth)) := by
  induction limit generalizing stream with
  | zero =>
    have ends := isEnd_head_of_ahead_eq_zero (Nat.le_zero.mp enough)
    have other := Token.isKeyword_eq_false_of_isEnd ends .jdid
    have single : Tracks stream depth depth (atom rules) (Grammar.atom (levelsLeft depth)) :=
      Counts.tracks stream
    unfold Tracks
    rw [Grammar.primary_of_isKeyword_eq_false other]
    exact single
  | succ limit ih =>
    rw [Grammar.primary_eq]
    unfold primaryFrom
    refine (Counts.tracks stream).bind fun keyword mid eq => ?_
    cases eq
    split
    · next word =>
      have passed := (Stream.tail_of_isEnd_eq_false (Token.isEnd_of_isKeyword word)).2
      refine (Counts.tracks stream).bind fun _ mid eq => ?_
      cases eq
      exact (ih (by omega)).bind fun callee mid _ => Counts.tracks mid
    · exact Counts.tracks stream

instance [Serves depth rules] :
    Counts depth (primary rules) (Grammar.primary (levelsLeft depth)) where
  tracks stream := by
    have single : Tracks stream depth depth (primaryFrom rules stream.ahead)
        (Grammar.primary (levelsLeft depth)) := tracks_primaryFrom (le_refl _)
    exact single

instance [Serves depth rules] :
    Counts depth (updated rules) (Grammar.updated (levelsLeft depth)) := by
  unfold updated Grammar.updated
  refine @counts_bind _ _ _ _ _ _ _ _ fun first => ?_
  refine @counts_bind _ _ _ _ _ _ _ _ fun target => ?_
  refine @counts_bind _ _ _ _ _ _ _ _ fun token => ?_
  cases Grammar.stepOp? token <;> infer_instance

instance [Serves depth rules] :
    Counts depth (operand rules) (Grammar.operand (levelsLeft depth)) := by
  unfold operand Grammar.operand
  refine @counts_bind _ _ _ _ _ _ _ _ fun token => ?_
  cases Grammar.stepOp? token with
  | some op => infer_instance
  | none => cases Grammar.unaryOp? token <;> infer_instance

theorem countsFrom_disjunction [serves : Serves depth rules] :
    CountsFrom depth (disjunction rules) Grammar.disjunction := by
  unfold disjunction Grammar.disjunction Grammar.conjunction Grammar.equality Grammar.comparison
    Grammar.sum Grammar.product
  iterate 6 apply countsFrom_chain
  intro inner le
  have := serves.mono le
  infer_instance

instance [Serves depth rules] :
    Counts depth (disjunction rules) (Grammar.disjunction (levelsLeft depth)) :=
  countsFrom_disjunction depth (le_refl depth)

instance [Serves depth rules] :
    Counts depth (assignment rules) (Grammar.assignment (levelsLeft depth)) := by
  unfold assignment Grammar.assignment
  refine @counts_bind _ _ _ _ _ _ _ _ fun target => ?_
  refine @counts_bind _ _ _ _ _ _ _ _ fun token => ?_
  cases Grammar.assignOp? token <;> infer_instance

/-! ### Statements -/

instance [serves : Serves depth rules] :
    Restores depth (nestedStatement rules) (Grammar.nestedStatement (levelsLeft depth)) :=
  restores_nested fun lt => (serves.counts (depth + 1) (by omega) lt).statement

instance [Serves depth rules] : Counts depth (parenthesizedExpression rules)
    (Grammar.parenthesizedExpression (levelsLeft depth)) := by
  unfold parenthesizedExpression Grammar.parenthesizedExpression
  infer_instance

instance [Serves depth rules] :
    Counts depth (declaration rules) (Grammar.declaration (levelsLeft depth)) := by
  unfold declaration Grammar.declaration
  dsimp only
  infer_instance

instance [Serves depth rules] :
    Counts depth (functionDeclaration rules) (Grammar.functionDeclaration (levelsLeft depth)) := by
  unfold functionDeclaration Grammar.functionDeclaration
  infer_instance

instance [Serves depth rules] :
    Counts depth (conditional rules) (Grammar.conditional (levelsLeft depth)) := by
  unfold conditional Grammar.conditional
  infer_instance

instance [Serves depth rules] :
    Counts depth (loopBody rules) (Grammar.loopBody (levelsLeft depth)) := by
  unfold loopBody Grammar.loopBody
  infer_instance

instance [Serves depth rules] :
    Counts depth (whileLoop rules) (Grammar.whileLoop (levelsLeft depth)) := by
  unfold whileLoop Grammar.whileLoop
  infer_instance

instance [Serves depth rules] :
    Counts depth (doWhileLoop rules) (Grammar.doWhileLoop (levelsLeft depth)) := by
  unfold doWhileLoop Grammar.doWhileLoop
  infer_instance

instance [Serves depth rules] :
    Counts depth (loopStart rules) (Grammar.loopStart (levelsLeft depth)) := by
  unfold loopStart Grammar.loopStart
  infer_instance

instance [Serves depth rules] (sign : Char) : Counts depth (expressionUnless rules sign)
    (Grammar.expressionUnless (levelsLeft depth) sign) := by
  unfold expressionUnless Grammar.expressionUnless
  infer_instance

instance [Serves depth rules] :
    Counts depth (forLoop rules) (Grammar.forLoop (levelsLeft depth)) := by
  unfold forLoop Grammar.forLoop
  infer_instance

instance [Serves depth rules] :
    Counts depth (handler rules) (Grammar.handler (levelsLeft depth)) := by
  unfold handler Grammar.handler
  infer_instance

instance [Serves depth rules] :
    Counts depth (finalizer rules) (Grammar.finalizer (levelsLeft depth)) := by
  unfold finalizer Grammar.finalizer
  infer_instance

instance [Serves depth rules] :
    Counts depth (attempt rules) (Grammar.attempt (levelsLeft depth)) := by
  unfold attempt Grammar.attempt
  infer_instance

instance [Serves depth rules] (test : Option Expr) :
    Counts depth (clauseFrom rules test) (Grammar.clauseFrom (levelsLeft depth) test) := by
  unfold clauseFrom Grammar.clauseFrom
  infer_instance

instance [Serves depth rules] (hasDefault : Bool) (limit : Nat) :
    Counts depth (clauses rules hasDefault limit)
      (Grammar.clauses (levelsLeft depth) hasDefault limit) := by
  induction limit generalizing hasDefault with
  | zero => unfold clauses Grammar.clauses; infer_instance
  | succ limit ih =>
    unfold clauses Grammar.clauses
    dsimp only
    infer_instance

instance [Serves depth rules] :
    Counts depth (choice rules) (Grammar.choice (levelsLeft depth)) := by
  unfold choice Grammar.choice
  infer_instance

instance [Serves depth rules] :
    Counts depth (giveBack rules) (Grammar.giveBack (levelsLeft depth)) := by
  unfold giveBack Grammar.giveBack
  infer_instance

instance (counted : Counting Stmt) (rule : Parse Stmt) [Counts depth counted rule] :
    Counts depth (terminated counted) (Grammar.terminated rule) := by
  unfold terminated Grammar.terminated
  infer_instance

instance [Serves depth rules] :
    Counts depth (evaluation rules) (Grammar.evaluation (levelsLeft depth)) := by
  unfold evaluation Grammar.evaluation
  infer_instance

instance [Serves depth rules] :
    Counts depth (statement rules) (Grammar.statement (levelsLeft depth)) := by
  unfold statement Grammar.statement
  refine @counts_bind _ _ _ _ _ _ _ _ fun token => ?_
  split
  · infer_instance
  · split
    · infer_instance
    · cases token.keyword? with
      | none => infer_instance
      | some word => cases word <;> infer_instance

end

/-! ### All levels -/

/-- Rules that contain each other as often as levels are left are never without one that is needed. -/
theorem serves_rules {n : Nat} (enough : maxLevels ≤ n + depth) : Serves depth (rules n) := by
  -- The claim is for every depth, since a rule may be used any number of levels further in.
  induction n generalizing depth with
  | zero => exact ⟨fun inner lt le => by omega⟩
  | succ n ih =>
    refine ⟨fun inner lt le => ?_⟩
    have := ih (show maxLevels ≤ n + inner by omega)
    exact ⟨inferInstanceAs (Counts inner (statement (rules n)) (Grammar.statement _)),
      inferInstanceAs (Counts inner (conditional (rules n)) (Grammar.conditional _)),
      inferInstanceAs (Counts inner (assignment (rules n)) (Grammar.assignment _)),
      inferInstanceAs (Counts inner (operand (rules n)) (Grammar.operand _))⟩

end Counting

end DarijaScript
