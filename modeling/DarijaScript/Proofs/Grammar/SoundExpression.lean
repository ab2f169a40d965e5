import DarijaScript.Proofs.Grammar.Head

/-!
# Expressions that were read are written so

What a rule for expressions reads without an error is derived by the tokens that it passed. Each
rule is inverted on its own, under the assumption that the rules of the levels further in are sound.
-/

set_option synthInstance.maxSize 1000

namespace DarijaScript

open Parse

/-- What the rule reads without an error is written by the tokens that it passes. -/
def Sound {α : Type} (source : Nat) (rule : Parse α)
    (writes : Surroundings → List Token → α → Prop) : Prop :=
  ∀ ⦃around before a after⦄, Gives around source rule before a after →
    ∃ tokens, before = tokens ++ after ∧ writes around tokens a

/-- A statement that was read is written by the tokens that were passed, and if it could still take
another branch, then none is next. -/
def SoundStatement (source : Nat) (rule : Parse Stmt)
    (writes : Surroundings → List Token → Stmt → Prop) : Prop :=
  ∀ ⦃around before stmt after⦄, Gives around source rule before stmt after →
    ∃ tokens, before = tokens ++ after ∧ writes around tokens stmt ∧
      (stmt.endsOpen = true → (headOf after).addsBranch = false)

namespace Grammar

open Phrase

/-- Every rule of a level of nesting is sound. A condition is read from its keyword on. -/
structure SoundRules (source : Nat) (rules : Rules) : Prop where
  statement : SoundStatement source rules.statement (Statement source)
  conditional : SoundStatement source rules.conditional fun around tokens stmt =>
    ∃ keyword rest, tokens = keyword :: rest ∧ Conditional source around rest stmt
  expression : Sound source rules.expression fun _ => Expression source
  operand : Sound source rules.operand fun _ => Operand source

/-- Every rule of the levels that are left is sound and conservative. -/
class SoundLevels (source : Nat) (levels : Levels) : Prop extends ConservativeLevels levels where
  sound : ∀ rules ∈ levels, SoundRules source rules

theorem SoundLevels.tail {source : Nat} {rules : Rules} {levels : Levels}
    (h : SoundLevels source (rules :: levels)) : SoundLevels source levels where
  toConservativeLevels := h.toConservativeLevels.tail
  sound := fun _ mem => h.sound _ (List.mem_cons_of_mem _ mem)

variable {source : Nat}

/-! ### Lists -/

section

variable {α : Type} {thing : Parse α} [Conservative thing] {writes : List Token → α → Prop}

theorem sound_separated (sound : Sound source thing fun _ => writes) (close : Char) (limit : Nat) :
    Sound source (separated thing close limit) fun _ => Listed writes := by
  induction limit with
  | zero =>
    intro around before as after h
    obtain ⟨rfl, rfl⟩ := gives_pure.mp h
    exact ⟨[], rfl, .nil⟩
  | succ limit ih =>
    intro around before as after h
    unfold separated at h
    rw [gives_peek_bind] at h
    split at h
    · obtain ⟨rfl, rfl⟩ := gives_pure.mp h
      exact ⟨[], rfl, .nil⟩
    · obtain ⟨a, mid, first, behind⟩ := h.bind
      obtain ⟨tokens, rfl, written⟩ := sound first
      obtain ⟨comma, mid, accepted, rest⟩ := behind.bind
      rcases gives_acceptSign.mp accepted with ⟨rfl, sign, isComma, rfl⟩ | ⟨rfl, -, rfl⟩
      · obtain ⟨others, mid, further, last⟩ := rest.bind
        obtain ⟨rfl, rfl⟩ := gives_pure.mp last
        obtain ⟨more, rfl, listed⟩ := ih further
        exact ⟨tokens ++ sign :: more, by simp, .cons written isComma listed⟩
      · obtain ⟨rfl, rfl⟩ := gives_pure.mp rest
        exact ⟨tokens, rfl, .last written⟩

theorem sound_separatedTight (sound : Sound source thing fun _ => writes) {around : Surroundings}
    {limit : Nat} {before after : List Token} {as : List α} (enough : before.length < limit)
    (h : Gives around source (separatedTight thing limit) before as after) :
    ∃ tokens, before = tokens ++ after ∧ Enumerated writes tokens as := by
  induction limit generalizing before as with
  | zero => omega
  | succ limit ih =>
    unfold separatedTight at h
    obtain ⟨a, mid, first, behind⟩ := h.bind
    obtain ⟨tokens, rfl, written⟩ := sound first
    obtain ⟨comma, mid, accepted, rest⟩ := behind.bind
    rcases gives_acceptSign.mp accepted with ⟨rfl, sign, isComma, rfl⟩ | ⟨rfl, -, rfl⟩
    · obtain ⟨others, mid', further, last⟩ := rest.bind
      obtain ⟨rfl, rfl⟩ := gives_pure.mp last
      have fewer : mid.length < limit := by
        simp only [List.length_append, List.length_cons] at enough
        omega
      obtain ⟨more, rfl, listed⟩ := ih fewer further
      exact ⟨tokens ++ sign :: more, by simp, .cons written isComma listed⟩
    · obtain ⟨rfl, rfl⟩ := gives_pure.mp rest
      exact ⟨tokens, rfl, .last written⟩

end

theorem sound_identifier : Sound source identifier fun _ => Name := by
  intro around before name after h
  obtain ⟨token, kind, rfl, rfl⟩ := gives_identifier.mp h
  exact ⟨[token], rfl, .mk kind⟩

/-! ### Chains of operators -/

/-- Operators of two operands are not the end of the file. -/
def Joint.Proper (joint : Joint) : Prop :=
  ∀ token join, joint token = some join → token.isEnd = false

theorem proper_logicalJoint (op : Connective) : (logicalJoint op).Proper := by
  intro token join joins
  unfold logicalJoint at joins
  split at joins
  · next operator =>
    unfold Token.isOperator at operator
    unfold Token.isEnd
    grind
  · cases joins

theorem proper_binaryJoint (ops : List BinaryOp) : (binaryJoint ops).Proper := by
  intro token join joins
  obtain ⟨op, found, -⟩ := Option.map_eq_some_iff.mp joins
  have operator := List.find?_some found
  unfold Token.isOperator at operator
  unfold Token.isEnd
  grind

theorem sound_chainFrom {joint : Joint} {joints : List Joint} {operand : Levels → Parse Expr}
    {writes : List Token → Expr → Prop} (proper : joint.Proper)
    (conservative : ∀ levels [ConservativeLevels levels], Conservative (operand levels))
    (sound : ∀ levels [SoundLevels source levels],
      Sound source (operand levels) fun _ => Tier writes joints)
    {levels : Levels} (inst : SoundLevels source levels) {around : Surroundings}
    {tokens before after : List Token} {left expr : Expr}
    (written : Tier writes (joint :: joints) tokens left)
    (h : Gives around source (chainFrom joint operand levels left) before expr after) :
    ∃ more, before = more ++ after ∧ Tier writes (joint :: joints) (tokens ++ more) expr := by
  induction levels generalizing tokens before left with
  | nil =>
    unfold chainFrom at h
    rw [gives_peek_bind] at h
    split at h
    · obtain ⟨rfl, rfl⟩ := gives_pure.mp h
      exact ⟨[], rfl, by simpa using written⟩
    · obtain ⟨_, _, _, h⟩ := h.bind
      exact absurd h not_gives_failHere
  | cons rules levels ih =>
    have := inst.tail
    have := conservative levels
    have := conservative_chainFrom joint operand conservative levels
    unfold chainFrom at h
    rw [gives_peek_bind] at h
    split at h
    · obtain ⟨rfl, rfl⟩ := gives_pure.mp h
      exact ⟨[], rfl, by simpa using written⟩
    · next join joins =>
      have notEnd := proper _ _ joins
      obtain ⟨rest, eq⟩ := eq_cons_of_headOf notEnd
      rw [eq, gives_advance_bind notEnd] at h
      obtain ⟨right, mid, second, behind⟩ := h.bind
      obtain ⟨others, rfl, written'⟩ := sound levels second
      obtain ⟨more, rfl, whole⟩ := ih inst.tail (.link written (by rw [joins]; rfl) written') behind
      exact ⟨headOf before :: others ++ more, by rw [eq]; simp, by simpa using whole⟩

theorem sound_chain {joint : Joint} {joints : List Joint} {operand : Levels → Parse Expr}
    {writes : List Token → Expr → Prop} (proper : joint.Proper)
    (conservative : ∀ levels [ConservativeLevels levels], Conservative (operand levels))
    (sound : ∀ levels [SoundLevels source levels],
      Sound source (operand levels) fun _ => Tier writes joints)
    (levels : Levels) [inst : SoundLevels source levels] :
    Sound source (chain joint operand levels) fun _ => Tier writes (joint :: joints) := by
  intro around before expr after h
  have := conservative levels
  have := conservative_chainFrom joint operand conservative levels
  unfold chain at h
  obtain ⟨first, mid, reads, behind⟩ := h.bind
  obtain ⟨tokens, rfl, written⟩ := sound levels reads
  obtain ⟨more, rfl, whole⟩ :=
    sound_chainFrom proper conservative sound inst (.tighter written) behind
  exact ⟨tokens ++ more, by simp, whole⟩

/-! ### Calls and members -/

section

variable (levels : Levels) [SoundLevels source levels]

theorem sound_nestedExpression :
    Sound source (nestedExpression levels) fun _ => Expression source := by
  intro around before expr after h
  obtain ⟨rules, mem, read⟩ := gives_deeper h
  exact (SoundLevels.sound rules mem).expression read

theorem sound_nestedOperand :
    Sound source (levels.deeper (·.operand)) fun _ => Operand source := by
  intro around before expr after h
  obtain ⟨rules, mem, read⟩ := gives_deeper h
  exact (SoundLevels.sound rules mem).operand read

theorem sound_nestedStatement :
    SoundStatement source (levels.deeper (·.statement)) (Statement source) := by
  intro around before stmt after h
  obtain ⟨rules, mem, read⟩ := gives_deeper h
  exact (SoundLevels.sound rules mem).statement read

theorem sound_arguments (opening : Token) :
    Sound source (arguments levels opening) fun _ => Arguments source := by
  intro around before args after h
  unfold arguments at h
  dsimp only at h
  obtain ⟨closed, mid, accepted, behind⟩ := h.bind
  rcases gives_acceptSign.mp accepted with ⟨rfl, closing, closes, rfl⟩ | ⟨rfl, -, rfl⟩
  · simp only [if_true, pure_bind, List.length_nil, Nat.not_lt_zero, if_false, gives_pure] at behind
    obtain ⟨rfl, rfl⟩ := behind
    exact ⟨[closing], rfl, .none closes⟩
  · rw [if_neg (by simp), gives_remaining_bind] at behind
    obtain ⟨inside, mid', listed, ending⟩ := behind.bind
    obtain ⟨tokens, rfl, written⟩ :=
      sound_separatedTight (sound_nestedExpression levels) (Nat.lt_succ_self _) listed
    obtain ⟨closing, mid, last, counted⟩ := ending.bind
    obtain ⟨closes, rfl⟩ := gives_expectSign.mp last
    rw [pure_bind] at counted
    split at counted
    · obtain ⟨_, _, recorded, _⟩ := counted.bind
      exact absurd recorded not_gives_record
    · next few =>
      obtain ⟨rfl, rfl⟩ := gives_pure.mp counted
      exact ⟨tokens ++ [closing], by simp, .some written (Nat.not_lt.mp few) closes⟩

theorem sound_memberOf {owner : Expr} {around : Surroundings} {token : Token}
    {before after : List Token} {expr : Expr}
    (begins : token.isPunctuation '.' = true ∨ token.isPunctuation '[' = true)
    (h : Gives around source (memberOf levels owner) (token :: before) expr after) :
    ∃ tokens, before = tokens ++ after ∧ MemberSuffix source owner (token :: tokens) expr := by
  unfold memberOf at h
  have notEnd : token.isEnd = false := by
    rcases begins with sign | sign <;> exact Token.isEnd_of_isPunctuation sign
  rw [gives_advance_bind notEnd] at h
  split at h
  · next point =>
    obtain ⟨name, mid, word, last⟩ := h.bind
    have proper : ∀ token : Token, token.isMemberName = true → token.isEnd = false := by
      intro token isName
      unfold Token.isMemberName at isName
      unfold Token.isEnd
      grind
    obtain ⟨isName, rfl⟩ := (gives_expect proper).mp word
    obtain ⟨rfl, rfl⟩ := gives_pure.mp last
    exact ⟨[name], rfl, .named point isName⟩
  · next noPoint =>
    simp only [gives_bind, gives_expectSign, gives_pure] at h
    obtain ⟨key, mid, inside, closing, _, ⟨closes, rfl⟩, rfl, rfl⟩ := h
    obtain ⟨tokens, rfl, written⟩ := sound_nestedExpression levels inside
    exact ⟨tokens ++ [closing], by simp, .computed (begins.resolve_left noPoint) written closes⟩

end

theorem sound_membersFrom {Head : Bool → List Token → Expr → Prop} {levels : Levels}
    (inst : SoundLevels source levels) {around : Surroundings} {isOpen : Bool}
    {tokens before after : List Token} {owner expr : Expr}
    (written : Suffixed Head (MemberSuffix source) isOpen tokens owner)
    (settled : isOpen = true → (headOf before).beginsSuffix = false)
    (h : Gives around source (membersFrom levels owner) before expr after) :
    ∃ more isOpen, before = more ++ after ∧
      Suffixed Head (MemberSuffix source) isOpen (tokens ++ more) expr ∧
        (isOpen = true → (headOf after).beginsSuffix = false) ∧
          (headOf after).beginsMember = false := by
  induction levels generalizing tokens before owner isOpen with
  | nil =>
    unfold membersFrom at h
    rw [gives_peek_bind] at h
    split at h
    · exact absurd h not_gives_failHere
    · next stops =>
      obtain ⟨rfl, rfl⟩ := gives_pure.mp h
      exact ⟨[], isOpen, rfl, by simpa using written, settled, by simpa [Token.beginsMember] using stops⟩
  | cons rules levels ih =>
    have := inst.tail
    unfold membersFrom at h
    rw [gives_peek_bind] at h
    split at h
    · next begins =>
      have begins : (headOf before).beginsMember = true := begins
      obtain rfl : isOpen = false := by
        cases isOpen with
        | false => rfl
        | true => exact absurd (settled rfl) (by simp [Token.beginsSuffix, begins])
      obtain ⟨rest, eq⟩ := eq_cons_of_headOf (Token.isEnd_of_beginsMember begins)
      obtain ⟨owner', mid, first, behind⟩ := h.bind
      rw [eq] at first
      obtain ⟨others, rfl, suffix⟩ :=
        sound_memberOf levels (by simpa [Token.beginsMember] using begins) first
      obtain ⟨more, isOpen, rfl, whole, settled, stops⟩ :=
        ih inst.tail (.suffix written suffix) (by simp) behind
      refine ⟨headOf before :: others ++ more, isOpen, by rw [eq]; simp, ?_, settled, stops⟩
      simpa using whole
    · next stops =>
      obtain ⟨rfl, rfl⟩ := gives_pure.mp h
      exact ⟨[], isOpen, rfl, by simpa using written, settled, by simpa [Token.beginsMember] using stops⟩

theorem sound_callsFrom {Head : Bool → List Token → Expr → Prop} {levels : Levels}
    (inst : SoundLevels source levels) {around : Surroundings} {isOpen : Bool}
    {tokens before after : List Token} {callee expr : Expr}
    (written : Suffixed Head (CallSuffix source) isOpen tokens callee)
    (settled : isOpen = true → (headOf before).beginsSuffix = false)
    (h : Gives around source (callsFrom levels callee) before expr after) :
    ∃ more isOpen, before = more ++ after ∧
      Suffixed Head (CallSuffix source) isOpen (tokens ++ more) expr := by
  induction levels generalizing tokens before callee isOpen with
  | nil =>
    unfold callsFrom at h
    rw [gives_peek_bind] at h
    split at h
    · exact absurd h not_gives_failHere
    · obtain ⟨rfl, rfl⟩ := gives_pure.mp h
      exact ⟨[], isOpen, rfl, by simpa using written⟩
  | cons rules levels ih =>
    have := inst.tail
    have closed (begins : (headOf before).beginsSuffix = true) : isOpen = false := by
      cases isOpen with
      | false => rfl
      | true => exact absurd begins (by simp [settled rfl])
    unfold callsFrom at h
    rw [gives_peek_bind] at h
    split at h
    · next opens =>
      have notEnd := Token.isEnd_of_isPunctuation opens
      obtain ⟨rest, eq⟩ := eq_cons_of_headOf notEnd
      rw [eq, gives_advance_bind notEnd] at h
      obtain ⟨args, mid, first, behind⟩ := h.bind
      obtain ⟨others, rfl, passed⟩ := sound_arguments levels _ first
      obtain rfl := closed (by simp [Token.beginsSuffix, opens])
      obtain ⟨more, isOpen, rfl, whole⟩ :=
        ih inst.tail (.suffix written (.call opens passed)) (by simp) behind
      refine ⟨headOf before :: others ++ more, isOpen, by rw [eq]; simp, by simpa using whole⟩
    · split at h
      · next begins =>
        have begins : (headOf before).beginsMember = true := begins
        obtain rfl := closed (by simp [Token.beginsSuffix, begins])
        obtain ⟨rest, eq⟩ := eq_cons_of_headOf (Token.isEnd_of_beginsMember begins)
        obtain ⟨callee', mid, first, behind⟩ := h.bind
        rw [eq] at first
        obtain ⟨others, rfl, suffix⟩ :=
          sound_memberOf levels (by simpa [Token.beginsMember] using begins) first
        obtain ⟨more, isOpen, rfl, whole⟩ := ih inst.tail (.suffix written (.member suffix)) (by simp) behind
        refine ⟨headOf before :: others ++ more, isOpen, by rw [eq]; simp, by simpa using whole⟩
      · obtain ⟨rfl, rfl⟩ := gives_pure.mp h
        exact ⟨[], isOpen, rfl, by simpa using written⟩

section

variable (levels : Levels) [inst : SoundLevels source levels]

/-! ### Functions and fields -/

theorem sound_items (stops : Token → Bool) (limit : Nat) :
    Sound source (items levels stops limit) fun around tokens stmts =>
      Many (Statement source) tokens stmts around := by
  induction limit with
  | zero =>
    intro around before stmts after h
    obtain ⟨rfl, rfl⟩ := gives_pure.mp h
    exact ⟨[], rfl, .nil⟩
  | succ limit ih =>
    intro around before stmts after h
    rw [gives_items_succ, gives_peek_bind] at h
    split at h
    · obtain ⟨rfl, rfl⟩ := gives_pure.mp h
      exact ⟨[], rfl, .nil⟩
    · simp only [gives_bind, gives_pure] at h
      obtain ⟨stmt, mid, read, others, _, rest, rfl, rfl⟩ := h
      obtain ⟨tokens, rfl, written, -⟩ := sound_nestedStatement levels read
      obtain ⟨more, rfl, follow⟩ := ih rest
      exact ⟨tokens ++ more, by simp, .cons written follow⟩

theorem sound_block : Sound source (block levels) (Block source) := by
  intro around before body after h
  simp only [block, gives_bind, gives_expectSign, gives_remaining, gives_pure] at h
  obtain ⟨opening, _, ⟨opens, rfl⟩, _, _, ⟨rfl, rfl⟩, _, mid, inside, closing, _, ⟨closes, rfl⟩,
    rfl, rfl⟩ := h
  obtain ⟨tokens, rfl, written⟩ := sound_items levels _ _ inside
  exact ⟨opening :: tokens ++ [closing], by simp, .mk opens written closes⟩

theorem sound_functionFrom (keyword : Token) (name : Option Identifier) :
    Sound source (functionFrom levels keyword name) fun _ =>
      FunctionRest source keyword name := by
  intro around before f after h
  unfold functionFrom at h
  dsimp only at h
  obtain ⟨opening, _, first, behind⟩ := h.bind
  obtain ⟨opens, rfl⟩ := gives_expectSign.mp first
  rw [gives_remaining_bind] at behind
  obtain ⟨params, mid, listed, ending⟩ := behind.bind
  obtain ⟨names, rfl, written⟩ := sound_separated sound_identifier ')' _ listed
  obtain ⟨closing, mid', last, counted⟩ := ending.bind
  obtain ⟨closes, rfl⟩ := gives_expectSign.mp last
  split at counted
  · obtain ⟨_, _, recorded, _⟩ := counted.bind
    exact absurd recorded not_gives_record
  · next few =>
    obtain ⟨body, mid, read, made⟩ := counted.bind
    rw [gives_surroundedBy] at read
    obtain ⟨tokens, rfl, block⟩ := sound_block levels read
    rw [gives_get_bind] at made
    obtain ⟨rfl, rfl⟩ := gives_pure.mp made
    exact ⟨opening :: names ++ closing :: tokens, by simp,
      .mk opens written closes (Nat.not_lt.mp few) block⟩

theorem sound_entry : Sound source (entry levels) fun _ => Entry source := by
  intro around before field after h
  unfold entry at h
  dsimp only at h
  obtain ⟨token, mid, first, behind⟩ := h.bindOf fun _ => by
    repeat' first | infer_instance | split
  -- The end of the file is no key, so a token was passed.
  have passed (key : String) (named : Key token key) : before = token :: mid := by
    have notEnd : token.isEnd = false := by simp [Token.isEnd, named.kind]
    rcases gives_advance_cases first with ⟨-, eq⟩ | ⟨ends, -⟩
    · exact eq
    · exact absurd ends (by simp [notEnd])
  have rest {key : String} (named : Key token key)
      (behind : Gives around source (do
        let _ ← expectSign ':'
        let value ← nestedExpression levels
        pure (key, value)) mid field after) :
      ∃ tokens, before = tokens ++ after ∧ Entry source tokens field := by
    simp only [gives_bind, gives_expectSign, gives_pure] at behind
    obtain ⟨colon, _, ⟨sign, rfl⟩, value, _, read, rfl, rfl⟩ := behind
    obtain ⟨tokens, rfl, written⟩ := sound_nestedExpression levels read
    exact ⟨token :: colon :: tokens, passed key named, .mk named sign written⟩
  split at behind
  · next kind => exact rest (.word (by simp [Token.isMemberName, kind])) behind
  · next kind => exact rest (.word (by simp [Token.isMemberName, kind])) behind
  · next kind => exact rest (.word (by simp [Token.isMemberName, kind])) behind
  · next kind => exact rest (.string kind) behind
  · next kind =>
    split at behind
    · next reads => exact rest (.number kind reads) behind
    · obtain ⟨_, _, failed, _⟩ := behind.bind
      exact absurd failed not_gives_failAt
  · obtain ⟨_, _, failed, _⟩ := behind.bind
    exact absurd failed not_gives_failAt

/-! ### Primary expressions -/

theorem sound_atom : Sound source (atom levels) fun _ => Atom source := by
  intro around before expr after h
  cases ends : (headOf before).isEnd with
  | true =>
    obtain ⟨token, _, first, behind⟩ := h.bindOf fun _ => by
      repeat' first | infer_instance | split
    obtain ⟨rfl, -⟩ := gives_advance.mp first
    have kind : (headOf before).kind = .endOfFile := by simpa [Token.isEnd] using ends
    simp [kind] at behind
  | false =>
    obtain ⟨rest, eq⟩ := eq_cons_of_headOf ends
    generalize headOf before = token at eq ends
    subst eq
    rw [atom, gives_advance_bind ends] at h
    split at h
    · next kind =>
      split at h
      · next value reads =>
        obtain ⟨rfl, rfl⟩ := gives_pure.mp h
        exact ⟨[token], rfl, .number kind reads⟩
      · exact absurd h not_gives_failAt
    · next kind =>
      obtain ⟨rfl, rfl⟩ := gives_pure.mp h
      exact ⟨[token], rfl, .string kind⟩
    · next kind =>
      obtain ⟨rfl, rfl⟩ := gives_pure.mp h
      exact ⟨[token], rfl, .boolean kind⟩
    · next kind =>
      obtain ⟨rfl, rfl⟩ := gives_pure.mp h
      exact ⟨[token], rfl, .identifier kind⟩
    · split at h
      · next word =>
        obtain ⟨rfl, rfl⟩ := gives_pure.mp h
        exact ⟨[token], rfl, .null (Token.isKeyword_iff.mpr word)⟩
      · next word =>
        obtain ⟨rfl, rfl⟩ := gives_pure.mp h
        exact ⟨[token], rfl, .undefined (Token.isKeyword_iff.mpr word)⟩
      · next word =>
        obtain ⟨rfl, rfl⟩ := gives_pure.mp h
        exact ⟨[token], rfl, .this (Token.isKeyword_iff.mpr word)⟩
      · next word =>
        have word := Token.isKeyword_iff.mpr word
        dsimp only at h
        rw [gives_peek_bind] at h
        split at h
        · simp only [gives_bind, gives_identifier, gives_pure] at h
          obtain ⟨_, mid, ⟨name, kind, rfl, rfl⟩, _, _, ⟨rfl, rfl⟩, f, _, read, rfl, rfl⟩ := h
          obtain ⟨tokens, rfl, written⟩ := sound_functionFrom levels _ _ read
          exact ⟨token :: [name] ++ tokens, by simp, .function word (.some (.mk kind)) written⟩
        · simp only [gives_bind, gives_pure] at h
          obtain ⟨_, _, ⟨rfl, rfl⟩, f, _, read, rfl, rfl⟩ := h
          obtain ⟨tokens, rfl, written⟩ := sound_functionFrom levels _ _ read
          exact ⟨token :: [] ++ tokens, by simp, .function word .none written⟩
      · exact absurd h not_gives_failAt
    · split at h
      · next opens =>
        simp only [gives_bind, gives_expectSign, gives_pure] at h
        obtain ⟨_, _, read, closing, _, ⟨closes, rfl⟩, rfl, rfl⟩ := h
        obtain ⟨tokens, rfl, written⟩ := sound_nestedExpression levels read
        exact ⟨token :: tokens ++ [closing], by simp, .group opens written closes⟩
      · split at h
        · next opens =>
          simp only [gives_bind, gives_remaining, gives_expectSign, gives_pure] at h
          obtain ⟨_, _, ⟨rfl, rfl⟩, _, _, read, closing, _, ⟨closes, rfl⟩, rfl, rfl⟩ := h
          obtain ⟨tokens, rfl, written⟩ :=
            sound_separated (sound_nestedExpression levels) _ _ read
          exact ⟨token :: tokens ++ [closing], by simp, .array opens written closes⟩
        · split at h
          · next opens =>
            simp only [gives_bind, gives_remaining, gives_expectSign, gives_pure] at h
            obtain ⟨_, _, ⟨rfl, rfl⟩, _, _, read, closing, _, ⟨closes, rfl⟩, rfl, rfl⟩ := h
            obtain ⟨tokens, rfl, written⟩ := sound_separated (sound_entry levels) _ _ read
            exact ⟨token :: tokens ++ [closing], by simp, .object opens written closes⟩
          · exact absurd h not_gives_failAt
    · exact absurd h not_gives_failAt

theorem sound_constructFrom {around : Surroundings} {keyword : Token} {isOpen : Bool}
    {tokens before after : List Token} {callee expr : Expr}
    (word : keyword.isKeyword .jdid = true) (written : Primary source isOpen tokens callee)
    (settled : isOpen = true → (headOf before).beginsSuffix = false)
    (h : Gives around source (constructFrom levels keyword callee) before expr after) :
    ∃ more isOpen, before = more ++ after ∧
      Primary source isOpen (keyword :: tokens ++ more) expr ∧
        (isOpen = true → (headOf after).beginsSuffix = false) := by
  unfold constructFrom at h
  obtain ⟨callee, mid, first, behind⟩ := h.bind
  obtain ⟨more, isOpen, rfl, chain, settled, stops⟩ :=
    sound_membersFrom inst (.head written) settled first
  rw [gives_peek_bind] at behind
  split at behind
  · next opens =>
    obtain ⟨rest, eq⟩ := eq_cons_of_headOf (Token.isEnd_of_isPunctuation opens)
    obtain rfl : isOpen = false := by
      cases isOpen with
      | false => rfl
      | true => exact absurd (settled rfl) (by simp [Token.beginsSuffix, opens])
    generalize headOf mid = opening at eq opens
    subst eq
    simp only [gives_advance_bind (Token.isEnd_of_isPunctuation opens), gives_bind, gives_pure]
      at behind
    obtain ⟨args, _, read, rfl, rfl⟩ := behind
    obtain ⟨others, rfl, passed⟩ := sound_arguments levels opening read
    refine ⟨more ++ opening :: others, false, by simp, ?_, by simp⟩
    simpa using Primary.construct word chain opens passed
  · next noCall =>
    obtain ⟨rfl, rfl⟩ := gives_pure.mp behind
    exact ⟨more, true, rfl, .bare word chain, fun _ => by simp [Token.beginsSuffix, stops, noCall]⟩

theorem sound_primary {around : Surroundings} {before after : List Token} {expr : Expr}
    (h : Gives around source (primary levels) before expr after) :
    ∃ tokens isOpen, before = tokens ++ after ∧ Primary source isOpen tokens expr ∧
      (isOpen = true → (headOf after).beginsSuffix = false) := by
  have constructs (keywords : List Token)
      (words : ∀ keyword ∈ keywords, keyword.isKeyword .jdid = true) {tokens before after}
      {first expr : Expr} (written : Primary source false tokens first)
      (h : Gives around source (keywords.foldrM (constructFrom levels) first) before expr after) :
      ∃ more isOpen, before = more ++ after ∧
        Primary source isOpen (keywords ++ tokens ++ more) expr ∧
          (isOpen = true → (headOf after).beginsSuffix = false) := by
    induction keywords generalizing expr after with
    | nil =>
      obtain ⟨rfl, rfl⟩ := gives_pure.mp h
      exact ⟨[], false, rfl, by simpa using written, by simp⟩
    | cons keyword keywords ih =>
      rw [List.foldrM_cons] at h
      obtain ⟨callee, mid, inner, outer⟩ := h.bind
      obtain ⟨more, isOpen, rfl, chain, settled⟩ :=
        ih (fun _ mem => words _ (List.mem_cons_of_mem _ mem)) inner
      obtain ⟨others, isOpen, rfl, whole, settled⟩ :=
        sound_constructFrom levels (words keyword (List.mem_cons_self ..)) chain settled outer
      exact ⟨more ++ others, isOpen, by simp, by simpa using whole, settled⟩
  unfold primary at h
  obtain ⟨keywords, mid, taken, behind⟩ := h.bind
  obtain ⟨rfl, words, -⟩ := gives_constructors.mp taken
  obtain ⟨first, mid', read, construction⟩ := behind.bind
  obtain ⟨tokens, rfl, written⟩ := sound_atom levels read
  obtain ⟨more, isOpen, rfl, whole, settled⟩ :=
    constructs _ words (.atom written) construction
  exact ⟨_, isOpen, by simp, whole, settled⟩

/-! ### Operands and chains -/

theorem isEnd_of_stepOp? {token : Token} {op : StepOp} (h : stepOp? token = some op) :
    token.isEnd = false := by
  unfold stepOp? Token.isOperator at h
  unfold Token.isEnd
  grind

theorem isEnd_of_unaryOp? {token : Token} {op : UnaryOp} (h : unaryOp? token = some op) :
    token.isEnd = false := by
  unfold unaryOp? at h
  split at h
  · next word => exact Token.isEnd_of_isKeyword word
  · unfold Token.isEnd
    grind

theorem isEnd_of_assignOp? {token : Token} {op : AssignmentOp} (h : assignOp? token = some op) :
    token.isEnd = false := by
  unfold assignOp? at h
  unfold Token.isEnd
  grind

theorem sound_updated : Sound source (updated levels) fun _ => Updated source := by
  intro around before expr after h
  unfold updated at h
  obtain ⟨first, mid, read, behind⟩ := h.bind
  obtain ⟨tokens, isOpen, rfl, written, settled⟩ := sound_primary levels read
  obtain ⟨target, mid', chain, ending⟩ := behind.bind
  obtain ⟨more, isOpen, rfl, whole⟩ := sound_callsFrom inst (.head written) settled chain
  rw [gives_peek_bind] at ending
  split at ending
  · obtain ⟨rfl, rfl⟩ := gives_pure.mp ending
    exact ⟨tokens ++ more, by simp, .plain whole⟩
  · next op steps =>
    split at ending
    · next assignable =>
      have notEnd := isEnd_of_stepOp? steps
      obtain ⟨rest, eq⟩ := eq_cons_of_headOf notEnd
      generalize headOf mid' = sign at eq notEnd steps ending
      subst eq
      simp only [gives_advance_bind notEnd, gives_pure] at ending
      obtain ⟨rfl, rfl⟩ := ending
      exact ⟨tokens ++ more ++ [sign], by simp, .update whole assignable steps⟩
    · exact absurd ending not_gives_failHere

theorem sound_operand : Sound source (operand levels) fun _ => Operand source := by
  intro around before expr after h
  unfold operand at h
  rw [gives_peek_bind] at h
  split at h
  · next op steps =>
    have notEnd := isEnd_of_stepOp? steps
    obtain ⟨rest, eq⟩ := eq_cons_of_headOf notEnd
    generalize headOf before = sign at eq notEnd steps h
    subst eq
    rw [gives_advance_bind notEnd] at h
    obtain ⟨target, mid, read, behind⟩ := h.bind
    obtain ⟨tokens, rfl, written⟩ := sound_nestedOperand levels read
    split at behind
    · next assignable =>
      obtain ⟨rfl, rfl⟩ := gives_pure.mp behind
      exact ⟨sign :: tokens, by simp, .update steps written assignable⟩
    · exact absurd behind not_gives_failAt
  · next noStep =>
    split at h
    · next op applies =>
      have notEnd := isEnd_of_unaryOp? applies
      obtain ⟨rest, eq⟩ := eq_cons_of_headOf notEnd
      generalize headOf before = sign at eq notEnd applies noStep h
      subst eq
      simp only [gives_advance_bind notEnd, gives_bind, gives_pure] at h
      obtain ⟨inner, _, read, rfl, rfl⟩ := h
      obtain ⟨tokens, rfl, written⟩ := sound_nestedOperand levels read
      exact ⟨sign :: tokens, by simp, .unary noStep applies written⟩
    · obtain ⟨tokens, rfl, written⟩ := sound_updated levels h
      exact ⟨tokens, rfl, .updated written⟩

end

theorem sound_disjunction (levels : Levels) [SoundLevels source levels] :
    Sound source (disjunction levels) fun _ => Tier (Operand source) tiers := by
  have conservative (joint : Joint) (operand : Levels → Parse Expr)
      (h : ∀ levels [ConservativeLevels levels], Conservative (operand levels)) :
      ∀ levels [ConservativeLevels levels], Conservative (chain joint operand levels) :=
    fun levels _ => conservative_chain joint operand h levels
  have operands : ∀ levels [SoundLevels source levels],
      Sound source (operand levels) fun _ => Tier (Operand source) [] := by
    intro levels _ around before expr after h
    obtain ⟨tokens, eq, written⟩ := sound_operand levels h
    exact ⟨tokens, eq, .operand written⟩
  unfold disjunction conjunction equality comparison sum product tiers
  refine sound_chain (proper_logicalJoint _) ?_ (fun levels _ => ?_) levels
  · iterate 5 refine conservative _ _ ?_
    exact fun _ _ => inferInstance
  refine sound_chain (proper_logicalJoint _) ?_ (fun levels _ => ?_) levels
  · iterate 4 refine conservative _ _ ?_
    exact fun _ _ => inferInstance
  refine sound_chain (proper_binaryJoint _) ?_ (fun levels _ => ?_) levels
  · iterate 3 refine conservative _ _ ?_
    exact fun _ _ => inferInstance
  refine sound_chain (proper_binaryJoint _) ?_ (fun levels _ => ?_) levels
  · iterate 2 refine conservative _ _ ?_
    exact fun _ _ => inferInstance
  refine sound_chain (proper_binaryJoint _) ?_ (fun levels _ => ?_) levels
  · refine conservative _ _ ?_
    exact fun _ _ => inferInstance
  exact sound_chain (proper_binaryJoint _) (fun _ _ => inferInstance) operands levels

theorem sound_assignment (levels : Levels) [SoundLevels source levels] :
    Sound source (assignment levels) fun _ => Expression source := by
  intro around before expr after h
  unfold assignment at h
  obtain ⟨target, mid, read, behind⟩ := h.bind
  obtain ⟨tokens, rfl, written⟩ := sound_disjunction levels read
  rw [gives_peek_bind] at behind
  split at behind
  · obtain ⟨rfl, rfl⟩ := gives_pure.mp behind
    exact ⟨tokens, rfl, .chain written⟩
  · next op assigns =>
    split at behind
    · next assignable =>
      have notEnd := isEnd_of_assignOp? assigns
      obtain ⟨rest, eq⟩ := eq_cons_of_headOf notEnd
      generalize headOf mid = sign at eq notEnd assigns behind
      subst eq
      simp only [gives_advance_bind notEnd, gives_bind, gives_pure] at behind
      obtain ⟨value, _, second, rfl, rfl⟩ := behind
      obtain ⟨others, rfl, written'⟩ := sound_nestedExpression levels second
      exact ⟨tokens ++ sign :: others, by simp, .assign written assignable assigns written'⟩
    · exact absurd behind not_gives_failHere

end Grammar

end DarijaScript
