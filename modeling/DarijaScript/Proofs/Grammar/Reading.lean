import DarijaScript.Proofs.Grammar.Conservative

/-!
# Reading without errors

`Gives` says that a rule reads something without finding an error, and `Reads` that it does so unless
the levels of nesting run out first. Both follow the steps of a rule: since errors are never taken
back, a rule without errors is made of steps without errors.
-/

set_option synthInstance.maxSize 1000

namespace DarijaScript

/-- The fault is that nothing may be nested deeper. -/
def SyntaxError.isTooDeep (error : SyntaxError) : Bool :=
  match error.issue with
  | .grammatical (.nestingTooDeep _) => true
  | _ => false

/-- The next of some tokens; behind the last one it is the end of the file. -/
def headOf (tokens : List Token) : Token := tokens.head?.getD Stream.endToken

@[simp] theorem headOf_cons (token : Token) (tokens : List Token) :
    headOf (token :: tokens) = token := rfl

/-- The sign that stands first is the next token. -/
theorem punctuationAhead {token : Token} {sign : Char} (h : token.isPunctuation sign = true)
    (rest : List Token) : (headOf (token :: rest)).isPunctuation sign = true := h

theorem keywordAhead {token : Token} {keyword : Keyword} (h : token.isKeyword keyword = true)
    (rest : List Token) : (headOf (token :: rest)).isKeyword keyword = true := h

@[simp] theorem headOf_nil : headOf [] = Stream.endToken := rfl

theorem eq_cons_of_headOf {tokens : List Token} (h : (headOf tokens).isEnd = false) :
    ∃ rest, tokens = headOf tokens :: rest := by
  cases tokens with
  | nil => exact absurd h (by decide)
  | cons token rest => exact ⟨rest, rfl⟩

namespace Stream

/-- A stream in which no error was found yet. -/
def fresh (around : Surroundings) (source : Nat) (tokens : List Token) : Stream :=
  { ofTokens tokens source with surroundings := around }

variable {around : Surroundings} {source : Nat} {tokens : List Token}

@[simp] theorem fresh_inj {others : List Token} :
    fresh around source tokens = fresh around source others ↔ tokens = others := by
  constructor
  · intro h
    exact congrArg rest h
  · rintro rfl
    rfl

theorem eq_fresh {stream : Stream} (errors : stream.errors = #[]) :
    stream = fresh stream.surroundings stream.source stream.rest := by
  obtain ⟨rest, ahead, rfl, _, _, _⟩ := stream
  obtain rfl : _ = #[] := errors
  rfl

theorem skip_fresh (count : Nat) :
    (fresh around source tokens).skip count = fresh around source (tokens.drop count) :=
  eq_fresh rfl

theorem head_fresh : (fresh around source tokens).head = headOf tokens := rfl

theorem tail_fresh (h : (headOf tokens).isEnd = false) :
    (fresh around source tokens).tail = fresh around source tokens.tail := by
  cases tokens with
  | nil => exact absurd h (by decide)
  | cons token rest =>
    have notEnd : ¬(fresh around source (token :: rest)).head.isEnd = true := by
      simpa [head_fresh] using h
    rw [tail, if_neg notEnd]
    rfl

theorem tail_fresh_of_isEnd (h : (headOf tokens).isEnd = true) :
    (fresh around source tokens).tail = fresh around source tokens := by
  rw [tail, if_pos (by rwa [head_fresh])]

/-- A state without errors that is later than one without errors differs in the tokens only. -/
theorem Extends.eq_fresh {after : Stream} (h : (fresh around source tokens).Extends after)
    (errors : after.errors = #[]) : after = fresh around source after.rest := by
  have := Stream.eq_fresh errors
  rwa [h.surroundings, h.source] at this

theorem Extends.errors_eq_empty {before after : Stream} (h : before.Extends after)
    (errors : after.errors = #[]) : before.errors = #[] := by
  have := h.errors
  rw [errors] at this
  simpa using this

end Stream

namespace Parse

variable {α β : Type} {around : Surroundings} {source : Nat}

/-! ### Rules that read without an error -/

/-- The rule reads `a` from the front of `before` without an error, and leaves `after`. -/
def Gives (around : Surroundings) (source : Nat) (rule : Parse α) (before : List Token) (a : α)
    (after : List Token) : Prop :=
  rule (.fresh around source before) = .ok a (.fresh around source after)

section

variable {before after : List Token}

theorem gives_bind {rule : Parse α} {next : α → Parse β} [Conservative rule]
    [∀ a, Conservative (next a)] {b : β} :
    Gives around source (rule >>= next) before b after ↔
      ∃ a mid, Gives around source rule before a mid ∧ Gives around source (next a) mid b after := by
  unfold Gives
  rw [bind_apply]
  constructor
  · intro h
    cases first : rule (.fresh around source before) with
    | error error stream => simp [first] at h
    | ok a stream =>
      simp only [first] at h
      have errors := (Conservative.ok h).errors_eq_empty rfl
      have stream_eq := (Conservative.ok first).eq_fresh errors
      rw [stream_eq] at h
      exact ⟨a, stream.rest, by rw [← stream_eq], h⟩
  · rintro ⟨a, mid, first, second⟩
    simp only [first, second]

/-- The two parts of a rule that reads without an error. -/
theorem Gives.bind {rule : Parse α} {next : α → Parse β} [Conservative rule]
    [∀ a, Conservative (next a)] {b : β}
    (h : Gives around source (rule >>= next) before b after) :
    ∃ a mid, Gives around source rule before a mid ∧ Gives around source (next a) mid b after :=
  gives_bind.mp h

/-- The two parts, when instance search does not see that the second one is conservative. -/
theorem Gives.bindOf {rule : Parse α} {next : α → Parse β} [Conservative rule] {b : β}
    (h : Gives around source (rule >>= next) before b after)
    (conservative : ∀ a, Conservative (next a)) :
    ∃ a mid, Gives around source rule before a mid ∧ Gives around source (next a) mid b after :=
  gives_bind.mp h

/-- A rule behind another one that gives something. -/
theorem Gives.step {rule : Parse α} {next : α → Parse β} {mid : List Token} {a : α} {b : β}
    (first : Gives around source rule before a mid)
    (second : Gives around source (next a) mid b after) :
    Gives around source (rule >>= next) before b after := by
  unfold Gives
  rw [bind_apply, show rule _ = _ from first]
  exact second

theorem gives_peek_bind {next : Token → Parse α} {a : α} :
    Gives around source (peek >>= next) before a after ↔
      Gives around source (next (headOf before)) before a after :=
  Iff.rfl

theorem gives_remaining_bind {next : Nat → Parse α} {a : α} :
    Gives around source (remaining >>= next) before a after ↔
      Gives around source (next before.length) before a after :=
  Iff.rfl

theorem gives_get_bind {next : Stream → Parse α} {a : α} :
    Gives around source (get >>= next) before a after ↔
      Gives around source (next (.fresh around source before)) before a after :=
  Iff.rfl

theorem gives_advance_bind {next : Token → Parse α} {a : α} {token : Token}
    (notEnd : token.isEnd = false) :
    Gives around source (advance >>= next) (token :: before) a after ↔
      Gives around source (next token) before a after := by
  have passes : (Stream.fresh around source (token :: before)).tail = .fresh around source before :=
    Stream.tail_fresh notEnd
  unfold Gives
  rw [bind_apply]
  simp only [advance, passes]
  rfl

theorem gives_pure {a b : α} :
    Gives around source (pure a) before b after ↔ b = a ∧ after = before := by
  unfold Gives
  simp only [pure, EStateM.pure, EStateM.Result.ok.injEq, Stream.fresh_inj]
  constructor <;> rintro ⟨rfl, rfl⟩ <;> simp

theorem gives_peek {token : Token} :
    Gives around source peek before token after ↔ token = headOf before ∧ after = before := by
  unfold Gives peek
  simp only [Stream.head_fresh, EStateM.Result.ok.injEq, Stream.fresh_inj]
  constructor <;> rintro ⟨rfl, rfl⟩ <;> simp

theorem gives_remaining {count : Nat} :
    Gives around source remaining before count after ↔
      count = before.length ∧ after = before := by
  unfold Gives remaining
  simp only [EStateM.Result.ok.injEq, Stream.fresh_inj]
  constructor <;> rintro ⟨rfl, rfl⟩ <;> simp [Stream.fresh, Stream.ofTokens]

theorem gives_advance {token : Token} :
    Gives around source advance before token after ↔
      token = headOf before ∧
        after = if (headOf before).isEnd then before else before.tail := by
  unfold Gives advance
  simp only [Stream.head_fresh, EStateM.Result.ok.injEq]
  split
  · next ends =>
    rw [Stream.tail_fresh_of_isEnd ends, Stream.fresh_inj]
    constructor <;> rintro ⟨rfl, rfl⟩ <;> simp
  · next ends =>
    rw [Stream.tail_fresh (by simpa using ends), Stream.fresh_inj]
    constructor <;> rintro ⟨rfl, rfl⟩ <;> simp

/-- The token was passed, or it is the end of the file. -/
theorem gives_advance_cases {token : Token}
    (h : Gives around source advance before token after) :
    (token.isEnd = false ∧ before = token :: after) ∨ (token.isEnd = true ∧ token = headOf after) := by
  obtain ⟨rfl, passed⟩ := gives_advance.mp h
  cases ends : (headOf before).isEnd with
  | true =>
    rw [if_pos ends] at passed
    exact .inr ⟨rfl, by rw [passed]⟩
  | false =>
    obtain ⟨rest, eq⟩ := eq_cons_of_headOf ends
    rw [if_neg (by simp [ends]), eq, List.tail_cons] at passed
    exact .inl ⟨rfl, by rw [passed, ← eq]⟩

/-- Passing a token that is not the end. -/
theorem gives_advance_cons {token other : Token} {rest : List Token}
    (notEnd : token.isEnd = false) :
    Gives around source advance (token :: rest) other after ↔ other = token ∧ after = rest := by
  simp [gives_advance, notEnd]

@[simp] theorem not_gives_failAt {token : Token} {issue : GrammarIssue} {a : α} :
    ¬Gives around source (failAt token issue) before a after := by
  simp [Gives, failAt, throw, throwThe, MonadExceptOf.throw, EStateM.throw]

@[simp] theorem not_gives_failHere {issue : String → GrammarIssue} {a : α} :
    ¬Gives around source (failHere issue) before a after := by
  unfold failHere
  rw [gives_bind]
  rintro ⟨_, _, _, h⟩
  exact not_gives_failAt h

@[simp] theorem not_gives_record {error : SyntaxError} {a : Unit} :
    ¬Gives around source (record error) before a after := by
  simp [Gives, record, modify, modifyGet, MonadStateOf.modifyGet, EStateM.modifyGet, Stream.fresh,
    Stream.ofTokens]

theorem gives_expect {fits : Token → Bool} {issue : String → GrammarIssue} {token : Token}
    (notEnd : ∀ token, fits token = true → token.isEnd = false) :
    Gives around source (expect fits issue) before token after ↔
      fits token = true ∧ before = token :: after := by
  unfold expect
  rw [gives_bind]
  simp only [gives_peek]
  constructor
  · rintro ⟨_, _, ⟨rfl, rfl⟩, h⟩
    split at h
    · next fit =>
      obtain ⟨rest, eq⟩ := eq_cons_of_headOf (notEnd _ fit)
      rw [eq, gives_advance_cons (notEnd _ fit)] at h
      obtain ⟨rfl, rfl⟩ := h
      exact ⟨fit, eq⟩
    · exact absurd h not_gives_failHere
  · rintro ⟨fit, rfl⟩
    refine ⟨token, _, ⟨rfl, rfl⟩, ?_⟩
    rw [if_pos fit, gives_advance_cons (notEnd _ fit)]
    exact ⟨rfl, rfl⟩

theorem gives_accept {fits : Token → Bool} {accepted : Bool}
    (notEnd : ∀ token, fits token = true → token.isEnd = false) :
    Gives around source (accept fits) before accepted after ↔
      (accepted = true ∧ ∃ token, fits token = true ∧ before = token :: after) ∨
        (accepted = false ∧ fits (headOf before) = false ∧ after = before) := by
  unfold accept
  rw [gives_bind]
  simp only [gives_peek]
  constructor
  · rintro ⟨_, _, ⟨rfl, rfl⟩, h⟩
    split at h
    · next fit =>
      obtain ⟨rest, eq⟩ := eq_cons_of_headOf (notEnd _ fit)
      rw [eq, gives_bind] at h
      simp only [gives_advance_cons (notEnd _ fit), gives_pure] at h
      obtain ⟨_, _, ⟨_, rfl⟩, rfl, rfl⟩ := h
      exact .inl ⟨rfl, _, fit, eq⟩
    · next fit =>
      rw [gives_pure] at h
      obtain ⟨rfl, rfl⟩ := h
      exact .inr ⟨rfl, by simpa using fit, rfl⟩
  · rintro (⟨rfl, token, fit, rfl⟩ | ⟨rfl, fit, rfl⟩)
    · refine ⟨token, _, ⟨rfl, rfl⟩, ?_⟩
      rw [if_pos fit, gives_bind]
      exact ⟨token, after, (gives_advance_cons (notEnd _ fit)).mpr ⟨rfl, rfl⟩,
        gives_pure.mpr ⟨rfl, rfl⟩⟩
    · refine ⟨_, _, ⟨rfl, rfl⟩, ?_⟩
      rw [if_neg (by simp [fit])]
      exact gives_pure.mpr ⟨rfl, rfl⟩

theorem gives_acceptSign {sign : Char} {accepted : Bool} :
    Gives around source (acceptSign sign) before accepted after ↔
      (accepted = true ∧ ∃ token, token.isPunctuation sign = true ∧ before = token :: after) ∨
        (accepted = false ∧ (headOf before).isPunctuation sign = false ∧ after = before) :=
  gives_accept fun _ => Token.isEnd_of_isPunctuation

theorem gives_expectSign {sign : Char} {token : Token} :
    Gives around source (expectSign sign) before token after ↔
      token.isPunctuation sign = true ∧ before = token :: after :=
  gives_expect fun _ => Token.isEnd_of_isPunctuation

theorem gives_identifier {name : Identifier} :
    Gives around source identifier before name after ↔
      ∃ token : Token, token.kind = .identifier ∧ before = token :: after ∧
        name = ⟨token.lexeme, token.position⟩ := by
  unfold identifier
  rw [gives_bind]
  simp only [gives_pure]
  have notEnd : ∀ token : Token, (token.kind == .identifier) = true → token.isEnd = false := by
    intro token kind
    simp_all [Token.isEnd]
  constructor
  · rintro ⟨token, _, h, rfl, rfl⟩
    obtain ⟨kind, rfl⟩ := (gives_expect notEnd).mp h
    exact ⟨token, by simpa using kind, rfl, rfl⟩
  · rintro ⟨token, kind, rfl, rfl⟩
    exact ⟨token, after, (gives_expect notEnd).mpr ⟨by simpa using kind, rfl⟩, rfl, rfl⟩

theorem gives_outcome {rule : Parse α} {result : Except SyntaxError α} :
    Gives around source (outcome rule) before result after ↔
      (∃ a, result = .ok a ∧ Gives around source rule before a after) ∨
        ∃ error, result = .error error ∧
          rule (.fresh around source before) = .error error (.fresh around source after) := by
  unfold Gives outcome
  cases rule (.fresh around source before) with
  | ok a stream =>
    simp only [EStateM.Result.ok.injEq, reduceCtorEq, and_false, exists_false, or_false]
    grind
  | error error stream =>
    simp only [EStateM.Result.ok.injEq, EStateM.Result.error.injEq, reduceCtorEq, and_false,
      exists_false, false_or]
    grind

theorem surroundedBy_fresh (change : Surroundings → Surroundings) (rule : Parse α) :
    surroundedBy change rule (.fresh around source before) =
      match rule (.fresh (change around) source before) with
      | .ok value after => .ok value { after with surroundings := around }
      | .error error after => .error error { after with surroundings := around } := rfl

theorem gives_surroundedBy {change : Surroundings → Surroundings} {rule : Parse α}
    [Conservative rule] {a : α} :
    Gives around source (surroundedBy change rule) before a after ↔
      Gives (change around) source rule before a after := by
  have set_fresh (s : Stream) (h : (Stream.fresh (change around) source before).Extends s) :
      ({ s with surroundings := around } : Stream) = .fresh around source after ↔
        s = .fresh (change around) source after := by
    obtain ⟨rest, ahead, rfl, errors, surroundings, source'⟩ := s
    have := h.surroundings
    simp_all [Stream.fresh, Stream.ofTokens]
  unfold Gives
  rw [surroundedBy_fresh]
  cases h : rule (.fresh (change around) source before) with
  | error error stream => simp
  | ok value stream =>
    simp only [EStateM.Result.ok.injEq, and_congr_right_iff]
    intro _
    exact set_fresh stream (Conservative.ok h)

end

/-! ### Rules that read without an error unless the levels run out -/

/-- All errors of an outcome in the order in which they were found. -/
def errorsOf : EStateM.Result SyntaxError Stream α → List SyntaxError
  | .ok _ stream => stream.errors.toList
  | .error error stream => stream.errors.toList ++ [error]

/-- The first error of an outcome is that the levels of nesting ran out. -/
def TooDeep (result : EStateM.Result SyntaxError Stream α) : Prop :=
  ∃ error ∈ (errorsOf result).head?, error.isTooDeep = true

/-- The rule reads `a` from the front of `before` and leaves `after`, unless the levels run out. -/
def Reads (around : Surroundings) (source : Nat) (rule : Parse α) (before : List Token) (a : α)
    (after : List Token) : Prop :=
  Gives around source rule before a after ∨ TooDeep (rule (.fresh around source before))

theorem TooDeep.of_errors {result : EStateM.Result SyntaxError Stream α}
    {other : EStateM.Result SyntaxError Stream β} (h : TooDeep result)
    (errors : errorsOf result <+: errorsOf other) : TooDeep other := by
  obtain ⟨error, mem, deep⟩ := h
  refine ⟨error, ?_, deep⟩
  obtain ⟨rest, eq⟩ := errors
  rw [← eq, List.head?_append]
  simp_all

theorem errorsOf_extends {rule : Parse α} [Conservative rule] (stream : Stream) :
    stream.errors.toList <+: errorsOf (rule stream) := by
  have later : stream.Extends (stateOf (rule stream)) := Conservative.extends_stateOf stream
  have h := later.errors
  cases eq : rule stream with
  | ok a after =>
    rw [eq] at h
    exact h
  | error error after =>
    rw [eq] at h
    exact h.trans (List.prefix_append _ _)

theorem TooDeep.bind {rule : Parse α} {next : α → Parse β} [∀ a, Conservative (next a)]
    {stream : Stream} (h : TooDeep (rule stream)) : TooDeep ((rule >>= next) stream) := by
  rw [bind_apply]
  cases eq : rule stream with
  | error error after => rwa [eq] at h
  | ok a after =>
    rw [eq] at h
    exact h.of_errors (errorsOf_extends after)

theorem Reads.of_gives {rule : Parse α} {before after : List Token} {a : α}
    (h : Gives around source rule before a after) : Reads around source rule before a after :=
  .inl h

theorem Reads.bind {rule : Parse α} {next : α → Parse β} [Conservative rule]
    [∀ a, Conservative (next a)] {before mid after : List Token} {a : α} {b : β}
    (first : Reads around source rule before a mid)
    (second : Reads around source (next a) mid b after) :
    Reads around source (rule >>= next) before b after := by
  rcases first with first | deep
  · rcases second with second | deep
    · exact .inl (gives_bind.mpr ⟨a, mid, first, second⟩)
    · refine .inr ?_
      rw [bind_apply, show rule _ = _ from first]
      exact deep
  · exact .inr deep.bind

theorem Reads.pure {tokens : List Token} {a : α} :
    Reads around source (Pure.pure a) tokens a tokens :=
  .inl (gives_pure.mpr ⟨rfl, rfl⟩)

/-- A step that certainly reads without an error. -/
theorem Reads.step {rule : Parse α} {next : α → Parse β} {before mid after : List Token} {a : α}
    {b : β} (first : Gives around source rule before a mid)
    (second : Reads around source (next a) mid b after) :
    Reads around source (rule >>= next) before b after := by
  unfold Reads Gives
  rw [bind_apply, show rule _ = _ from first]
  exact second

theorem reads_peek_bind {next : Token → Parse α} {before after : List Token} {a : α} :
    Reads around source (peek >>= next) before a after ↔
      Reads around source (next (headOf before)) before a after :=
  Iff.rfl

theorem reads_remaining_bind {next : Nat → Parse α} {before after : List Token} {a : α} :
    Reads around source (remaining >>= next) before a after ↔
      Reads around source (next before.length) before a after :=
  Iff.rfl

theorem reads_get_bind {next : Stream → Parse α} {before after : List Token} {a : α} :
    Reads around source (get >>= next) before a after ↔
      Reads around source (next (.fresh around source before)) before a after :=
  Iff.rfl

theorem Reads.advance {next : Token → Parse α} {before after : List Token} {a : α} {token : Token}
    (notEnd : token.isEnd = false) (h : Reads around source (next token) before a after) :
    Reads around source (Parse.advance >>= next) (token :: before) a after :=
  .step ((gives_advance_cons notEnd).mpr ⟨rfl, rfl⟩) h

theorem Reads.surroundedBy {change : Surroundings → Surroundings} {rule : Parse α}
    [Conservative rule] {before after : List Token} {a : α}
    (h : Reads (change around) source rule before a after) :
    Reads around source (Parse.surroundedBy change rule) before a after := by
  rcases h with h | deep
  · exact .inl (gives_surroundedBy.mpr h)
  · refine .inr (deep.of_errors ?_)
    rw [surroundedBy_fresh]
    cases rule (.fresh (change around) source before) <;> exact List.prefix_refl _

/-- A rule whose fault is kept as an error. -/
theorem Reads.outcome {rule : Parse α} {next : Except SyntaxError α → Parse β}
    {recovery : SyntaxError → Unit → Parse β} [Conservative rule]
    [∀ error done, Conservative (recovery error done)]
    (conservative : ∀ result, Conservative (next result)) {before mid after : List Token} {a : α} {b : β} (first : Reads around source rule before a mid)
    (second : Reads around source (next (.ok a)) mid b after)
    (kept : ∀ error, next (.error error) = record error >>= recovery error) :
    Reads around source (Parse.outcome rule >>= next) before b after := by
  rcases first with first | deep
  · exact .step (gives_outcome.mpr (.inl ⟨a, rfl, first⟩)) second
  · refine .inr (deep.of_errors ?_)
    rw [bind_apply, Parse.outcome]
    cases rule (.fresh around source before) with
    | ok a stream => exact errorsOf_extends stream
    | error error stream =>
      simp only [kept, bind_apply, record, modify, modifyGet, MonadStateOf.modifyGet,
        EStateM.modifyGet]
      have later : _ <+: errorsOf (recovery error () _) :=
        errorsOf_extends { stream with errors := stream.errors.push error }
      simpa [errorsOf] using later

theorem reads_failHere_tooDeep {tokens after : List Token} {a : α} :
    Reads around source (failHere .nestingTooDeep) tokens a after :=
  .inr ⟨_, rfl, rfl⟩

end Parse

namespace Grammar

open Parse

variable {source : Nat} {around : Surroundings}

theorem gives_deeper {α : Type} {levels : Levels} {rule : Rules → Parse α}
    {before after : List Token} {a : α}
    (h : Gives around source (levels.deeper rule) before a after) :
    ∃ rules ∈ levels, Gives around source (rule rules) before a after := by
  cases levels with
  | nil => exact absurd h not_gives_failHere
  | cons rules levels => exact ⟨rules, List.mem_cons_self .., h⟩

theorem reads_deeper {α : Type} {levels : Levels} {rule : Rules → Parse α}
    {before after : List Token} {a : α}
    (h : ∀ rules ∈ levels, Reads around source (rule rules) before a after) :
    Reads around source (levels.deeper rule) before a after := by
  cases levels with
  | nil => exact reads_failHere_tooDeep
  | cons rules levels => exact h rules (List.mem_cons_self ..)

theorem gives_constructors {before after keywords : List Token} :
    Gives around source constructors before keywords after ↔
      before = keywords ++ after ∧ (∀ keyword ∈ keywords, keyword.isKeyword .jdid = true) ∧
        (headOf after).isKeyword .jdid = false := by
  have rest_fresh : (Stream.fresh around source before).rest = before := rfl
  unfold Gives constructors
  simp only [Stream.skip_fresh, EStateM.Result.ok.injEq, Stream.fresh_inj, rest_fresh]
  constructor
  · rintro ⟨rfl, rfl⟩
    have parts := List.takeWhile_append_dropWhile (p := (·.isKeyword .jdid)) (l := before)
    generalize words : before.takeWhile (·.isKeyword .jdid) = keywords at parts
    generalize left : before.dropWhile (·.isKeyword .jdid) = after at parts
    obtain rfl := parts
    refine ⟨by rw [List.drop_left], ?_, ?_⟩
    · rw [← words]
      exact fun _ => List.mem_takeWhile_imp
    · have other := List.head?_dropWhile_not (·.isKeyword .jdid) (keywords ++ after)
      rw [left] at other
      rw [List.drop_left]
      cases after with
      | nil => rfl
      | cons token after => exact other
  · rintro ⟨rfl, words, other⟩
    have none : after.takeWhile (·.isKeyword .jdid) = [] := by
      cases after with
      | nil => rfl
      | cons token after => exact List.takeWhile_cons_of_neg (by simpa using other)
    have taken : (keywords ++ after).takeWhile (·.isKeyword .jdid) = keywords := by
      rw [List.takeWhile_append_of_pos words, none, List.append_nil]
    rw [taken]
    exact ⟨rfl, List.drop_left⟩

/-- One step of reading statements without an error. -/
theorem gives_items_succ {levels : Levels} [ConservativeLevels levels] {stops : Token → Bool}
    {limit : Nat} {before after : List Token} {stmts : List Stmt} :
    Gives around source (items levels stops (limit + 1)) before stmts after ↔
      Gives around source (do
        let token ← peek
        if token.isEnd || stops token then pure []
        else
          let stmt ← nestedStatement levels
          let others ← items levels stops limit
          pure (stmt :: others)) before stmts after := by
  rw [items, gives_peek_bind, gives_peek_bind]
  split
  · rfl
  · rw [gives_remaining_bind]
    constructor
    · intro h
      obtain ⟨result, mid, first, behind⟩ := h.bindOf fun _ => by split <;> infer_instance
      rcases gives_outcome.mp first with ⟨stmt, rfl, read⟩ | ⟨error, rfl, -⟩
      · exact .step read behind
      · obtain ⟨_, _, recorded, _⟩ := behind.bind
        exact absurd recorded not_gives_record
    · intro h
      obtain ⟨stmt, mid, read, behind⟩ := h.bind
      exact .step (gives_outcome.mpr (.inl ⟨stmt, rfl, read⟩)) behind

theorem gives_terminated {before after : List Token} {stmt : Stmt}
    {rule : Parse Stmt} [Conservative rule] :
    Gives around source (terminated rule) before stmt after ↔
      ∃ mid semicolon, Gives around source rule before stmt mid ∧
        semicolon.isPunctuation ';' = true ∧ mid = semicolon :: after := by
  simp only [terminated, gives_bind, gives_expectSign, gives_pure]
  grind

end Grammar

end DarijaScript
