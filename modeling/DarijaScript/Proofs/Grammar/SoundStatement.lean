import DarijaScript.Proofs.Grammar.SoundExpression

/-!
# Statements that were read are written so

The rules for statements are inverted one by one, and then the levels of nesting are closed by
induction: every rule is sound, however many levels are left.
-/

set_option synthInstance.maxSize 1000

namespace DarijaScript.Grammar

open Parse Phrase

variable {source : Nat} (levels : Levels) [inst : SoundLevels source levels]

/-- A statement that was read from this keyword on is written by the tokens that were passed, and if
it could still take another branch, then none is next. -/
def SoundFrom (source : Nat) (word : Keyword) (rule : Parse Stmt) : Prop :=
  ∀ ⦃around keyword before stmt after⦄, keyword.isKeyword word = true →
    Gives around source rule (keyword :: before) stmt after →
      ∃ tokens, before = tokens ++ after ∧ Statement source around (keyword :: tokens) stmt ∧
        (stmt.endsOpen = true → (headOf after).addsBranch = false)

omit inst in
theorem SoundFrom.sound {word : Keyword} {rule : Parse Stmt} (h : SoundFrom source word rule)
    {around : Surroundings} {before after : List Token} {stmt : Stmt}
    (found : (headOf before).keyword? = some word)
    (read : Gives around source rule before stmt after) :
    ∃ tokens, before = tokens ++ after ∧ Statement source around tokens stmt ∧
      (stmt.endsOpen = true → (headOf after).addsBranch = false) := by
  have isWord := Token.isKeyword_iff.mpr found
  obtain ⟨rest, eq⟩ := eq_cons_of_headOf (Token.isEnd_of_isKeyword isWord)
  generalize headOf before = keyword at eq isWord
  subst eq
  obtain ⟨tokens, rfl, written, settles⟩ := h isWord read
  exact ⟨keyword :: tokens, rfl, written, settles⟩

theorem sound_parenthesizedExpression :
    Sound source (parenthesizedExpression levels) fun _ => Parenthesized source := by
  intro around before expr after h
  simp only [parenthesizedExpression, gives_bind, gives_expectSign, gives_pure] at h
  obtain ⟨opening, _, ⟨opens, rfl⟩, _, _, read, closing, _, ⟨closes, rfl⟩, rfl, rfl⟩ := h
  obtain ⟨tokens, rfl, written⟩ := sound_nestedExpression levels read
  exact ⟨opening :: tokens ++ [closing], by simp, .mk opens written closes⟩

theorem sound_expressionUnless (sign : Char) :
    Sound source (expressionUnless levels sign) fun _ => Optionally (Expression source) := by
  intro around before expr after h
  unfold expressionUnless at h
  rw [gives_peek_bind] at h
  split at h
  · obtain ⟨rfl, rfl⟩ := gives_pure.mp h
    exact ⟨[], rfl, .none⟩
  · simp only [gives_bind, gives_pure] at h
    obtain ⟨_, _, read, rfl, rfl⟩ := h
    obtain ⟨tokens, rfl, written⟩ := sound_nestedExpression levels read
    exact ⟨tokens, rfl, .some written⟩

theorem isEnd_of_isOperator {token : Token} {text : String} (h : token.isOperator text = true) :
    token.isEnd = false := by
  unfold Token.isOperator at h
  unfold Token.isEnd
  grind

theorem sound_declaration {around : Surroundings} {keyword : Token} {before after : List Token}
    {stmt : Stmt}
    (word : keyword.isKeyword .tabit = true ∨ keyword.isKeyword .bdl = true)
    (h : Gives around source (declaration levels) (keyword :: before) stmt after) :
    ∃ tokens, before = tokens ++ after ∧ Declaration source (keyword :: tokens) stmt := by
  have notEnd : keyword.isEnd = false := by
    rcases word with word | word <;> exact Token.isEnd_of_isKeyword word
  unfold declaration at h
  rw [gives_advance_bind notEnd] at h
  dsimp only at h
  obtain ⟨_, _, named, behind⟩ := h.bind
  obtain ⟨name, kind, rfl, rfl⟩ := gives_identifier.mp named
  obtain ⟨_, mid, accepted, ending⟩ := behind.bind
  rcases (gives_accept fun _ => isEnd_of_isOperator).mp accepted with
    ⟨rfl, sign, assigns, rfl⟩ | ⟨rfl, -, rfl⟩
  · simp only [if_true, gives_bind, gives_pure] at ending
    obtain ⟨value, _, read, rfl, rfl⟩ := ending
    obtain ⟨tokens, rfl, written⟩ := sound_nestedExpression levels read
    refine ⟨name :: sign :: tokens, rfl, ?_⟩
    split
    · next constant => exact .constant constant kind assigns written
    · next other => exact .variable (word.resolve_left other) kind assigns written
  · by_cases constant : keyword.isKeyword .tabit = true
    · simp [constant] at ending
    · simp only [constant, Bool.false_eq_true, if_false, reduceCtorEq, gives_pure] at ending
      obtain ⟨rfl, rfl⟩ := ending
      exact ⟨[name], rfl, .uninitialized (word.resolve_left constant) kind⟩

theorem sound_functionDeclaration : SoundFrom source .dala (functionDeclaration levels) := by
  intro around keyword before stmt after word h
  simp only [functionDeclaration, gives_advance_bind (Token.isEnd_of_isKeyword word), gives_bind,
    gives_identifier, gives_pure] at h
  obtain ⟨_, _, ⟨name, kind, rfl, rfl⟩, f, _, read, rfl, rfl⟩ := h
  obtain ⟨tokens, rfl, rest⟩ := sound_functionFrom levels _ _ read
  exact ⟨name :: tokens, by simp, .function word kind rest, nofun⟩

theorem sound_conditional : SoundStatement source (conditional levels) fun around tokens stmt =>
    ∃ keyword rest, tokens = keyword :: rest ∧ Conditional source around rest stmt := by
  intro around before stmt after h
  unfold conditional at h
  obtain ⟨keyword, start, first, behind⟩ := h.bind
  obtain ⟨test, mid, tested, branches⟩ := behind.bind
  obtain ⟨tokens, rfl, writtenTest⟩ := sound_parenthesizedExpression levels tested
  obtain ⟨consequent, rest, read, choice⟩ := branches.bind
  obtain ⟨others, rfl, branch, settled⟩ := sound_nestedStatement levels read
  -- At the end of the file no parenthesis could have been read.
  obtain rfl : before = keyword :: (tokens ++ (others ++ rest)) := by
    rcases gives_advance_cases first with ⟨-, eq⟩ | ⟨ends, rfl⟩
    · exact eq
    · obtain ⟨opens, _, _⟩ := writtenTest
      simp [Token.isEnd_of_isPunctuation opens] at ends
  have closes (word : (headOf rest).addsBranch = true) : consequent.endsOpen = false := by
    cases isOpen : consequent.endsOpen with
    | false => rfl
    | true => simp [settled isOpen] at word
  rw [gives_peek_bind] at choice
  split at choice
  · next word =>
    have notEnd := Token.isEnd_of_isKeyword word
    obtain ⟨more, eq⟩ := eq_cons_of_headOf notEnd
    have closed := closes (by simp [Token.addsBranch, word])
    generalize headOf rest = last at eq notEnd word choice
    subst eq
    simp only [gives_advance_bind notEnd, gives_bind, gives_pure] at choice
    obtain ⟨alternate, _, second, rfl, rfl⟩ := choice
    obtain ⟨further, rfl, other, settles⟩ := sound_nestedStatement levels second
    exact ⟨_, by simp, ⟨keyword, tokens ++ others ++ last :: further, rfl,
      .otherwise writtenTest branch closed word other⟩, settles⟩
  · split at choice
    · next word =>
      have closed := closes (by simp [Token.addsBranch, word])
      simp only [gives_bind, gives_pure] at choice
      obtain ⟨alternate, _, second, rfl, rfl⟩ := choice
      obtain ⟨rules, mem, second⟩ := gives_deeper second
      obtain ⟨_, rfl, ⟨last, further, rfl, other⟩, settles⟩ :=
        (SoundLevels.sound rules mem).conditional second
      exact ⟨_, by simp, ⟨keyword, tokens ++ others ++ last :: further, rfl,
        .further writtenTest branch closed word other⟩, settles⟩
    · next noElla noWa9ila =>
      obtain ⟨rfl, rfl⟩ := gives_pure.mp choice
      refine ⟨_, by simp, ⟨keyword, tokens ++ others, rfl, .alone writtenTest branch⟩, fun _ => ?_⟩
      simp [Token.addsBranch, noElla, noWa9ila]

theorem sound_loopBody : SoundStatement source (loopBody levels) fun around =>
    Statement source around.inLoop := by
  intro around before stmt after h
  rw [loopBody, gives_surroundedBy] at h
  exact sound_nestedStatement levels h

theorem sound_loopStart : Sound source (loopStart levels) fun _ => Start source := by
  intro around before start after h
  unfold loopStart at h
  rw [gives_peek_bind] at h
  split at h
  · obtain ⟨rfl, rfl⟩ := gives_pure.mp h
    exact ⟨[], rfl, .none⟩
  · split at h
    · next begins =>
      have word : (headOf before).isKeyword .tabit = true ∨
          (headOf before).isKeyword .bdl = true := by
        simpa [or_comm] using begins
      have notEnd : (headOf before).isEnd = false := by
        rcases word with word | word <;> exact Token.isEnd_of_isKeyword word
      obtain ⟨rest, eq⟩ := eq_cons_of_headOf notEnd
      generalize headOf before = keyword at eq word
      subst eq
      simp only [gives_bind, gives_pure] at h
      obtain ⟨stmt, _, read, rfl, rfl⟩ := h
      obtain ⟨tokens, rfl, written⟩ := sound_declaration levels word read
      exact ⟨keyword :: tokens, rfl, .declare written⟩
    · simp only [gives_bind, gives_pure] at h
      obtain ⟨expr, _, read, rfl, rfl⟩ := h
      obtain ⟨tokens, rfl, written⟩ := sound_nestedExpression levels read
      exact ⟨tokens, rfl, .evaluate written⟩

theorem sound_handler :
    Sound source (handler levels) fun around => Optionally (Handler source around) := by
  intro around before found after h
  unfold handler at h
  obtain ⟨_, mid, accepted, behind⟩ := h.bind
  rcases (gives_accept fun _ => Token.isEnd_of_isKeyword).mp accepted with
    ⟨rfl, keyword, word, rfl⟩ | ⟨rfl, -, rfl⟩
  · simp only [if_true, gives_bind, gives_expectSign, gives_identifier, gives_pure] at behind
    obtain ⟨opening, _, ⟨opens, rfl⟩, _, _, ⟨name, kind, rfl, rfl⟩, closing, _, ⟨closes, rfl⟩, body,
      _, read, rfl, rfl⟩ := behind
    obtain ⟨tokens, rfl, block⟩ := sound_block levels read
    exact ⟨keyword :: opening :: name :: closing :: tokens, by simp,
      .some (.mk word opens kind closes block)⟩
  · rw [if_neg (by simp)] at behind
    obtain ⟨rfl, rfl⟩ := gives_pure.mp behind
    exact ⟨[], rfl, .none⟩

theorem sound_finalizer : Sound source (finalizer levels) fun around =>
    Optionally fun tokens body => ∃ keyword rest, tokens = keyword :: rest ∧
      keyword.isKeyword .fakhr = true ∧ Block source around rest body := by
  intro around before found after h
  unfold finalizer at h
  obtain ⟨_, mid, accepted, behind⟩ := h.bind
  rcases (gives_accept fun _ => Token.isEnd_of_isKeyword).mp accepted with
    ⟨rfl, keyword, word, rfl⟩ | ⟨rfl, -, rfl⟩
  · simp only [if_true, gives_bind, gives_pure] at behind
    obtain ⟨body, _, read, rfl, rfl⟩ := behind
    obtain ⟨tokens, rfl, block⟩ := sound_block levels read
    exact ⟨keyword :: tokens, by simp, .some ⟨keyword, tokens, rfl, word, block⟩⟩
  · rw [if_neg (by simp)] at behind
    obtain ⟨rfl, rfl⟩ := gives_pure.mp behind
    exact ⟨[], rfl, .none⟩

theorem sound_attempt : SoundFrom source .jrb (attempt levels) := by
  intro around keyword before stmt after word h
  rw [attempt, gives_advance_bind (Token.isEnd_of_isKeyword word)] at h
  obtain ⟨body, _, read, behind⟩ := h.bind
  obtain ⟨tokens, rfl, block⟩ := sound_block levels read
  obtain ⟨handler, _, handles, ending⟩ := behind.bind
  obtain ⟨others, rfl, handled⟩ := sound_handler levels handles
  obtain ⟨final, _, finalizes, last⟩ := ending.bind
  obtain ⟨more, rfl, finalized⟩ := sound_finalizer levels finalizes
  cases handled with
  | none =>
    cases finalized with
    | none => exact absurd last not_gives_failHere
    | some written =>
      obtain ⟨again, rest, rfl, word', closing⟩ := written
      obtain ⟨rfl, rfl⟩ := gives_pure.mp last
      exact ⟨tokens ++ again :: rest, by simp, .finalized word block word' closing, nofun⟩
  | some handled =>
    obtain ⟨rfl, rfl⟩ := gives_pure.mp last
    cases finalized with
    | none => exact ⟨tokens ++ others, by simp, .handled word block handled, nofun⟩
    | some written =>
      obtain ⟨again, rest, rfl, word', closing⟩ := written
      exact ⟨tokens ++ others ++ again :: rest, by simp,
        .handledFinalized word block handled word' closing, nofun⟩

theorem sound_clauseFrom (test : Option Expr) :
    Sound source (clauseFrom levels test) fun around tokens clause =>
      ∃ colon others body, tokens = colon :: others ∧ colon.isPunctuation ':' = true ∧
        Many (Statement source) others body around.inChoice ∧ clause = .mk test body := by
  intro around before clause after h
  simp only [clauseFrom, gives_bind, gives_expectSign, gives_surroundedBy, gives_remaining,
    gives_pure] at h
  obtain ⟨colon, _, ⟨sign, rfl⟩, body, _, ⟨_, _, ⟨rfl, rfl⟩, read⟩, rfl, rfl⟩ := h
  obtain ⟨tokens, rfl, written⟩ := sound_items levels _ _ read
  exact ⟨colon :: tokens, rfl, colon, tokens, body, rfl, sign, written, rfl⟩

theorem sound_clauses (hasDefault : Bool) (limit : Nat) :
    Sound source (clauses levels hasDefault limit) fun around =>
      Clauses source around hasDefault := by
  induction limit generalizing hasDefault with
  | zero =>
    intro around before cases after h
    obtain ⟨rfl, rfl⟩ := gives_pure.mp h
    exact ⟨[], rfl, .nil⟩
  | succ limit ih =>
    intro around before cases after h
    unfold clauses at h
    dsimp only at h
    rw [gives_peek_bind] at h
    split at h
    · next word =>
      have notEnd := Token.isEnd_of_isKeyword word
      obtain ⟨start, eq⟩ := eq_cons_of_headOf notEnd
      generalize headOf before = keyword at eq word notEnd
      subst eq
      simp only [gives_advance_bind notEnd, gives_bind, gives_pure] at h
      obtain ⟨test, _, tested, clause, _, first, rest, _, others, rfl, rfl⟩ := h
      obtain ⟨tokens, rfl, written⟩ := sound_nestedExpression levels tested
      obtain ⟨_, rfl, colon, inner, body, rfl, sign, inside, rfl⟩ :=
        sound_clauseFrom levels _ first
      obtain ⟨more, rfl, follow⟩ := ih hasDefault others
      exact ⟨keyword :: tokens ++ colon :: inner ++ more, by simp,
        .test word written sign inside follow⟩
    · split at h
      · next word =>
        have notEnd := Token.isEnd_of_isKeyword word
        obtain ⟨start, eq⟩ := eq_cons_of_headOf notEnd
        generalize headOf before = keyword at eq word notEnd
        subst eq
        rw [gives_advance_bind notEnd] at h
        cases hasDefault with
        | true =>
          obtain ⟨_, _, recorded, _⟩ := h.bind
          exact absurd recorded not_gives_record
        | false =>
          simp only [Bool.false_eq_true, if_false, gives_bind, gives_pure] at h
          obtain ⟨clause, _, first, rest, _, others, rfl, rfl⟩ := h
          obtain ⟨_, rfl, colon, inner, body, rfl, sign, inside, rfl⟩ :=
            sound_clauseFrom levels _ first
          obtain ⟨more, rfl, follow⟩ := ih true others
          exact ⟨keyword :: colon :: inner ++ more, by simp,
            .default word sign inside follow⟩
      · split at h
        · obtain ⟨rfl, rfl⟩ := gives_pure.mp h
          exact ⟨[], rfl, .nil⟩
        · obtain ⟨_, _, recorded, _⟩ := h.bind
          exact absurd recorded not_gives_record

theorem sound_choice : SoundFrom source .bdl3la (choice levels) := by
  intro around keyword before stmt after word h
  simp only [choice, gives_advance_bind (Token.isEnd_of_isKeyword word), gives_bind,
    gives_expectSign, gives_remaining, gives_pure] at h
  obtain ⟨subject, _, read, opening, _, ⟨opens, rfl⟩, _, _, ⟨rfl, rfl⟩, cases, _, listed, closing, _,
    ⟨closes, rfl⟩, rfl, rfl⟩ := h
  obtain ⟨tokens, rfl, chosen⟩ := sound_parenthesizedExpression levels read
  obtain ⟨others, rfl, written⟩ := sound_clauses levels false _ listed
  exact ⟨tokens ++ opening :: others ++ [closing], by simp,
    .choice word chosen opens written closes, nofun⟩

theorem sound_whileLoop : SoundFrom source .madamt (whileLoop levels) := by
  intro around keyword before stmt after word h
  simp only [whileLoop, gives_advance_bind (Token.isEnd_of_isKeyword word), gives_bind,
    gives_pure] at h
  obtain ⟨test, _, tested, body, _, repeated, rfl, rfl⟩ := h
  obtain ⟨tokens, rfl, writtenTest⟩ := sound_parenthesizedExpression levels tested
  obtain ⟨others, rfl, written, settles⟩ := sound_loopBody levels repeated
  exact ⟨tokens ++ others, by simp, .whileLoop word writtenTest written, settles⟩

theorem sound_doWhileLoop : SoundFrom source .dir (terminated (doWhileLoop levels)) := by
  intro around keyword before stmt after word h
  obtain ⟨_, semicolon, h, ends, rfl⟩ := gives_terminated.mp h
  simp only [doWhileLoop, gives_advance_bind (Token.isEnd_of_isKeyword word), gives_bind,
    gives_expect fun _ => Token.isEnd_of_isKeyword, gives_pure] at h
  obtain ⟨body, _, repeated, last, _, ⟨again, rfl⟩, test, _, tested, rfl, rfl⟩ := h
  obtain ⟨tokens, rfl, written, -⟩ := sound_loopBody levels repeated
  obtain ⟨others, rfl, writtenTest⟩ := sound_parenthesizedExpression levels tested
  exact ⟨tokens ++ last :: others ++ [semicolon], by simp,
    .doWhileLoop word written again writtenTest ends, nofun⟩

theorem sound_forLoop : SoundFrom source .douz (forLoop levels) := by
  intro around keyword before stmt after word h
  simp only [forLoop, gives_advance_bind (Token.isEnd_of_isKeyword word), gives_bind,
    gives_expectSign, gives_pure] at h
  obtain ⟨opening, _, ⟨opens, rfl⟩, start, _, begins, first, _, ⟨sign, rfl⟩, test, _, tested, second,
    _, ⟨sign', rfl⟩, update, _, updated, closing, _, ⟨closes, rfl⟩, body, _, repeated, rfl, rfl⟩ := h
  obtain ⟨starting, rfl, writtenStart⟩ := sound_loopStart levels begins
  obtain ⟨testing, rfl, writtenTest⟩ := sound_expressionUnless levels _ tested
  obtain ⟨updating, rfl, writtenUpdate⟩ := sound_expressionUnless levels _ updated
  obtain ⟨tokens, rfl, written, settles⟩ := sound_loopBody levels repeated
  exact ⟨opening :: starting ++ first :: testing ++ second :: updating ++ closing :: tokens,
    by simp, .forLoop word opens writtenStart sign writtenTest sign' writtenUpdate closes written,
    settles⟩

theorem sound_giveBack : SoundFrom source .rj3 (terminated (giveBack levels)) := by
  intro around keyword before stmt after word h
  obtain ⟨_, semicolon, h, ends, rfl⟩ := gives_terminated.mp h
  rw [giveBack, gives_advance_bind (Token.isEnd_of_isKeyword word), gives_get_bind] at h
  split at h
  · next placed =>
    simp only [gives_bind, gives_pure] at h
    obtain ⟨value, _, read, rfl, rfl⟩ := h
    obtain ⟨tokens, rfl, written⟩ := sound_expressionUnless levels _ read
    exact ⟨tokens ++ [semicolon], by simp, .giveBack word placed written ends, nofun⟩
  · exact absurd h not_gives_failAt

omit inst

theorem sound_leave : SoundFrom source .wa9f (terminated leave) := by
  intro around keyword before stmt after word h
  obtain ⟨_, semicolon, h, ends, rfl⟩ := gives_terminated.mp h
  rw [leave, gives_advance_bind (Token.isEnd_of_isKeyword word), gives_get_bind] at h
  dsimp only [Stream.fresh] at h
  split at h
  · exact absurd h not_gives_failAt
  · next placed =>
    obtain ⟨rfl, rfl⟩ := gives_pure.mp h
    have placed : 0 < around.loops ∨ 0 < around.choices := by
      simp only [Bool.and_eq_true, decide_eq_true_eq] at placed
      omega
    exact ⟨[semicolon], rfl, .leave word placed ends, nofun⟩

theorem sound_next : SoundFrom source .kamml (terminated next) := by
  intro around keyword before stmt after word h
  obtain ⟨_, semicolon, h, ends, rfl⟩ := gives_terminated.mp h
  rw [next, gives_advance_bind (Token.isEnd_of_isKeyword word), gives_get_bind] at h
  change Gives around source (if around.loops = 0 then _ else _) _ _ _ at h
  by_cases placed : around.loops = 0
  · rw [if_pos placed] at h
    exact absurd h not_gives_failAt
  · rw [if_neg placed] at h
    obtain ⟨rfl, rfl⟩ := gives_pure.mp h
    exact ⟨[semicolon], rfl, .next word (Nat.pos_of_ne_zero placed) ends, nofun⟩

include inst

theorem sound_declared {word : Keyword} (declares : word = .tabit ∨ word = .bdl) :
    SoundFrom source word (terminated (declaration levels)) := by
  intro around keyword before stmt after found h
  obtain ⟨_, semicolon, read, ends, rfl⟩ := gives_terminated.mp h
  have word : keyword.isKeyword .tabit = true ∨ keyword.isKeyword .bdl = true := by
    rcases declares with rfl | rfl
    · exact .inl found
    · exact .inr found
  obtain ⟨tokens, rfl, written⟩ := sound_declaration levels word read
  refine ⟨tokens ++ [semicolon], by simp, .declare written ends, ?_⟩
  cases written <;> nofun

theorem sound_conditionalStatement : SoundFrom source .ila (conditional levels) := by
  intro around keyword before stmt after word h
  obtain ⟨_, eq, ⟨_, tokens, rfl, written⟩, settles⟩ := sound_conditional levels h
  obtain ⟨rfl, rfl⟩ := List.cons.inj eq
  exact ⟨tokens, rfl, .conditional word written, settles⟩

theorem sound_evaluation {around : Surroundings} {before after : List Token} {stmt : Stmt}
    (noBlock : (headOf before).isPunctuation '\x7b' = false)
    (noFunction : (headOf before).isKeyword .dala = false)
    (h : Gives around source (terminated (evaluation levels)) before stmt after) :
    ∃ tokens, before = tokens ++ after ∧ Statement source around tokens stmt ∧
      (stmt.endsOpen = true → (headOf after).addsBranch = false) := by
  obtain ⟨_, semicolon, h, ends, rfl⟩ := gives_terminated.mp h
  simp only [evaluation, gives_bind, gives_pure] at h
  obtain ⟨expr, _, read, rfl, rfl⟩ := h
  obtain ⟨tokens, rfl, written⟩ := sound_nestedExpression levels read
  have headless : NoStatementHead tokens := by
    intro token mem
    cases tokens with
    | nil => simp at mem
    | cons first rest =>
      obtain rfl : first = token := by simpa using mem
      exact ⟨noBlock, noFunction⟩
  exact ⟨tokens ++ [semicolon], by simp, .evaluate written headless ends, nofun⟩

theorem sound_statement : SoundStatement source (statement levels) (Statement source) := by
  intro around before stmt after h
  unfold statement at h
  rw [gives_peek_bind] at h
  split at h
  · simp only [gives_bind, gives_pure] at h
    obtain ⟨body, _, read, rfl, rfl⟩ := h
    obtain ⟨tokens, rfl, block⟩ := sound_block levels read
    exact ⟨tokens, rfl, .block block, nofun⟩
  · next noBlock =>
    split at h
    · next ends =>
      have notEnd := Token.isEnd_of_isPunctuation ends
      obtain ⟨rest, eq⟩ := eq_cons_of_headOf notEnd
      generalize headOf before = semicolon at eq ends notEnd
      subst eq
      simp only [gives_advance_bind notEnd, gives_pure] at h
      obtain ⟨rfl, rfl⟩ := h
      exact ⟨[semicolon], rfl, .empty ends, nofun⟩
    · split at h
      · next found => exact (sound_declared levels (.inl rfl)).sound found h
      · next found => exact (sound_declared levels (.inr rfl)).sound found h
      · next found => exact (sound_functionDeclaration levels).sound found h
      · next found => exact (sound_conditionalStatement levels).sound found h
      · next found => exact (sound_whileLoop levels).sound found h
      · next found => exact (sound_forLoop levels).sound found h
      · next found => exact (sound_attempt levels).sound found h
      · next found => exact (sound_choice levels).sound found h
      · next found => exact (sound_doWhileLoop levels).sound found h
      · next found => exact (sound_giveBack levels).sound found h
      · next found => exact sound_leave.sound found h
      · next found => exact sound_next.sound found h
      · next noFunction _ _ _ _ _ _ _ _ _ =>
        refine sound_evaluation levels (by simpa using noBlock) ?_ h
        by_contra word
        exact noFunction (Token.isKeyword_iff.mp (by simpa using word))

theorem soundRules : SoundRules source (rules levels) where
  statement := sound_statement levels
  conditional := sound_conditional levels
  expression := sound_assignment levels
  operand _ _ _ _ h := sound_operand levels h

omit inst

instance (n : Nat) : SoundLevels source (Grammar.levels n) := by
  induction n with
  | zero => exact ⟨by simp [Grammar.levels]⟩
  | succ n ih =>
    have conservative : ConservativeLevels (Grammar.levels (n + 1)) := inferInstance
    refine { conservative with sound := fun rules mem => ?_ }
    rcases List.mem_cons.mp mem with rfl | mem
    · exact soundRules _
    · exact ih.sound rules mem

end DarijaScript.Grammar
