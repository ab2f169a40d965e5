import DarijaScript.Proofs.Grammar.Conservative

/-!
# What errors cost and where they stand

Every error is paid for with a token that is passed, and blamed on a token that was ahead or on the
end. A rule that recorded errors and then fails has one more token to pay with, so that its own error
can be recorded as well. The class `Accounted` is closed under the steps that rules are made of; the
rules that record errors are looked at one by one.
-/

set_option synthInstance.maxSize 1000

namespace DarijaScript

/-- The error is one of the arrangement of tokens, at one of some places. -/
structure SyntaxError.Blames (places : Position → Prop) (error : SyntaxError) : Prop where
  stage : error.stage = .parsing
  place : places error.position

namespace Stream

/-- The tokens ahead and the errors found so far are at some places, and so is what is seen behind
the last token unless there is an end of the file to stop at. -/
structure Placed (places : Position → Prop) (stream : Stream) : Prop where
  tokens : ∀ token ∈ stream.rest, places token.position
  ending : (∀ token ∈ stream.rest, token.isEnd = false) → places .unknown
  errors : ∀ error ∈ stream.errors.toList, error.Blames places

/-- The errors found so far and the tokens that errors can still be paid with. -/
def charge (stream : Stream) : Nat := stream.errors.size + stream.ahead

/-- The errors found on the way were paid for with the tokens passed. -/
structure Even (before after : Stream) : Prop where
  ahead : after.ahead ≤ before.ahead
  charge : after.charge ≤ before.charge

/-- There was no error on the way, or one more token was passed than there were errors. -/
structure Paid (before after : Stream) : Prop where
  ahead : after.ahead ≤ before.ahead
  charge : after.errors.size = before.errors.size ∨ after.charge < before.charge

variable {places : Position → Prop} {first second third before after : Stream}

theorem Paid.even (h : before.Paid after) : before.Even after where
  ahead := h.ahead
  charge := by
    have := h.ahead
    have := h.charge
    unfold Stream.charge at *
    omega

theorem Even.trans (h : first.Even second) (h' : second.Even third) : first.Even third :=
  ⟨Nat.le_trans h'.ahead h.ahead, Nat.le_trans h'.charge h.charge⟩

theorem Paid.trans (h : first.Paid second) (h' : second.Paid third) : first.Paid third where
  ahead := Nat.le_trans h'.ahead h.ahead
  charge := by
    have := h.ahead
    have := h'.ahead
    have := h.charge
    have := h'.charge
    unfold Stream.charge at *
    omega

/-- A token passed on the way makes up for what follows. -/
theorem Paid.before_even (h : first.Paid second) (passed : second.ahead < first.ahead)
    (h' : second.Even third) : first.Paid third where
  ahead := Nat.le_trans h'.ahead h.ahead
  charge := by
    have := h.charge
    have := h'.charge
    unfold Stream.charge at *
    omega

theorem Extends.ahead_le (h : before.Extends after) : after.ahead ≤ before.ahead := by
  obtain ⟨tokens, rest, -⟩ := h.passed
  rw [before.ahead_eq, after.ahead_eq, rest, List.length_append]
  omega

theorem Extends.paid (h : before.Extends after) (errors : after.errors = before.errors) :
    before.Paid after := ⟨h.ahead_le, .inl (congrArg Array.size errors)⟩

/-- Where no token was passed, the same ones are ahead. -/
theorem Extends.rest_eq (h : before.Extends after) (same : after.ahead = before.ahead) :
    after.rest = before.rest := by
  obtain ⟨tokens, rest, -⟩ := h.passed
  rw [before.ahead_eq, after.ahead_eq, rest, List.length_append] at same
  have none : tokens = [] := List.length_eq_zero_iff.mp (by omega)
  rw [rest, none, List.nil_append]

theorem Placed.of_extends (placed : before.Placed places) (h : before.Extends after)
    (errors : ∀ error ∈ after.errors.toList, error.Blames places) : after.Placed places := by
  obtain ⟨tokens, rest, ends⟩ := h.passed
  obtain ⟨within, ending, -⟩ := placed
  rw [rest] at within ending
  refine ⟨fun token mem => within token (List.mem_append_right _ mem), fun noEnd => ?_, errors⟩
  exact ending (List.forall_mem_append.mpr ⟨ends, noEnd⟩)

theorem Placed.place_head (placed : before.Placed places) : places before.head.position := by
  unfold head
  cases eq : before.rest with
  | nil => exact placed.ending (by simp [eq])
  | cons token rest => exact placed.tokens token (by simp [eq])

theorem tail_of_isEnd_eq_false (notEnd : before.head.isEnd = false) :
    before.tail.errors = before.errors ∧ before.tail.ahead < before.ahead := by
  unfold tail
  rw [if_neg (by simp [notEnd])]
  refine ⟨rfl, ?_⟩
  cases eq : before.rest with
  | nil =>
    unfold head at notEnd
    rw [eq] at notEnd
    cases notEnd
  | cons token rest =>
    change before.ahead - 1 < before.ahead
    rw [before.ahead_eq, eq, List.length_cons]
    omega

end Stream

namespace Parse

variable {α β : Type} {places : Position → Prop} {costs : Stream → Stream → Prop}

theorem bind_of_ok {rule : Parse α} {next : α → Parse β} {stream after : Stream} {a : α}
    (h : rule stream = .ok a after) : (rule >>= next) stream = next a after := by
  rw [bind_apply, h]

theorem bind_of_error {rule : Parse α} {next : α → Parse β} {stream after : Stream}
    {error : SyntaxError} (h : rule stream = .error error after) :
    (rule >>= next) stream = .error error after := by
  rw [bind_apply, h]

/-- From a state in which only the places can be blamed, the rule comes at this cost to a state of
the same kind, and what it fails with is blamed on one of the places. -/
structure Accounts (places : Position → Prop) (costs : Stream → Stream → Prop) (stream : Stream)
    (result : EStateM.Result SyntaxError Stream α) : Prop where
  cost : costs stream (stateOf result)
  placed : (stateOf result).Placed places
  blames : ∀ error after, result = .error error after → error.Blames places

/-- Whatever the rule meets, it accounts for its errors. -/
class Accounted (places : Position → Prop) (costs : Stream → Stream → Prop) (rule : Parse α) :
    Prop where
  accounts : ∀ stream : Stream, stream.Placed places → Accounts places costs stream (rule stream)

theorem accounts_of (costs : Stream → Stream → Prop) (rule : Parse α)
    [Accounted places costs rule] {stream : Stream} (placed : stream.Placed places) :
    Accounts places costs stream (rule stream) :=
  Accounted.accounts stream placed

/-- The token that the rule gives stands at one of the places. -/
class Sees (places : Position → Prop) (rule : Parse Token) : Prop where
  sees : ∀ stream token after, stream.Placed places → rule stream = .ok token after →
    places token.position

/-- Costs that come after one another are costs again, whatever constructs are around. -/
class Cost (costs : Stream → Stream → Prop) : Prop where
  trans : ∀ first second third, costs first second → costs second third → costs first third
  surroundings : ∀ before after outer inner,
    costs { before with surroundings := inner } after →
      costs before { after with surroundings := outer }

instance : Cost Stream.Paid := ⟨fun _ _ _ => .trans, fun _ _ _ _ h => { h with }⟩

instance : Cost Stream.Even := ⟨fun _ _ _ => .trans, fun _ _ _ _ h => { h with }⟩

/-- A rule that records nothing and does not fail. -/
theorem Accounted.of_ok {rule : Parse α} [Conservative rule]
    (ok : ∀ stream, ∃ a after, rule stream = .ok a after ∧ after.errors = stream.errors) :
    Accounted places Stream.Paid rule where
  accounts stream placed := by
    obtain ⟨a, after, eq, same⟩ := ok stream
    have later := Conservative.ok eq
    rw [eq]
    exact ⟨later.paid same, placed.of_extends later (same ▸ placed.errors), nofun⟩

theorem Accounts.bind [Cost costs] {rule : Parse α} {next : α → Parse β}
    {stream mid : Stream} (first : Accounts places costs stream (rule mid))
    (behind : ∀ a after, rule mid = .ok a after → after.Placed places →
      Accounts places costs after (next a after)) :
    Accounts places costs stream ((rule >>= next) mid) := by
  rw [bind_apply]
  cases h : rule mid with
  | ok a after =>
    rw [h] at first
    have rest := behind a after h first.placed
    exact ⟨Cost.trans _ _ _ first.cost rest.cost, rest.placed, rest.blames⟩
  | error error after =>
    rw [h] at first
    refine ⟨first.cost, first.placed, fun other state same => ?_⟩
    cases same
    exact first.blames error after rfl

instance accounted_bind [Cost costs] (rule : Parse α)
    (next : α → Parse β) [Accounted places costs rule] [∀ a, Accounted places costs (next a)] :
    Accounted places costs (rule >>= next) where
  accounts stream placed :=
    (Accounted.accounts stream placed).bind fun _ after _ => Accounted.accounts after

/-- What follows a token may be blamed on it. -/
theorem accounted_bind_sees [Cost costs] {rule : Parse Token} {next : Token → Parse β}
    [Accounted places costs rule] [Sees places rule]
    (behind : ∀ token, Fact (places token.position) → Accounted places costs (next token)) :
    Accounted places costs (rule >>= next) where
  accounts stream placed :=
    (Accounted.accounts stream placed).bind fun token after eq placed' =>
      (behind token ⟨Sees.sees stream token after placed eq⟩).accounts after placed'

instance (condition : Prop) [Decidable condition] (rule other : Parse α)
    [Accounted places costs rule] [Accounted places costs other] :
    Accounted places costs (if condition then rule else other) := by
  split <;> infer_instance

theorem Accounted.even {rule : Parse α} (h : Accounted places Stream.Paid rule) :
    Accounted places Stream.Even rule where
  accounts stream placed :=
    have paid := h.accounts stream placed
    ⟨paid.cost.even, paid.placed, paid.blames⟩

instance (a : α) : Accounted places Stream.Paid (pure a : Parse α) :=
  .of_ok fun stream => ⟨a, stream, rfl, rfl⟩

instance : Accounted places Stream.Paid peek := .of_ok fun stream => ⟨_, stream, rfl, rfl⟩

instance : Accounted places Stream.Paid remaining := .of_ok fun stream => ⟨_, stream, rfl, rfl⟩

instance : Accounted places Stream.Paid (get : Parse Stream) :=
  .of_ok fun stream => ⟨_, stream, rfl, rfl⟩

theorem errors_tail (stream : Stream) : stream.tail.errors = stream.errors := by
  unfold Stream.tail
  split <;> rfl

instance : Accounted places Stream.Paid advance :=
  .of_ok fun stream => ⟨_, stream.tail, rfl, errors_tail stream⟩

instance : Sees places peek where
  sees := by
    rintro stream token after placed eq
    cases eq
    exact placed.place_head

instance : Sees places advance where
  sees := by
    rintro stream token after placed eq
    cases eq
    exact placed.place_head

instance (token : Token) [Fact (places token.position)] (issue : GrammarIssue) :
    Accounted places Stream.Paid (failAt token issue : Parse α) where
  accounts stream placed := by
    refine ⟨(Stream.Extends.refl stream).paid rfl, placed, fun error after eq => ?_⟩
    cases eq
    exact ⟨rfl, Fact.out⟩

instance (issue : String → GrammarIssue) :
    Accounted places Stream.Paid (failHere issue : Parse α) := by
  unfold failHere
  exact accounted_bind_sees fun token _ => inferInstance

instance (fits : Token → Bool) : Accounted places Stream.Paid (accept fits) := by
  unfold accept
  infer_instance

instance (fits : Token → Bool) (issue : String → GrammarIssue) :
    Accounted places Stream.Paid (expect fits issue) := by
  unfold expect
  infer_instance

theorem expect_eq_ok {fits : Token → Bool} {issue : String → GrammarIssue} {stream after : Stream}
    {token : Token} (h : expect fits issue stream = .ok token after) :
    token = stream.head ∧ fits token = true ∧ after = stream.tail := by
  unfold expect at h
  rw [bind_apply] at h
  change (if fits stream.head = true then advance else failHere issue) stream = _ at h
  split at h
  · next fit =>
    cases h
    exact ⟨rfl, fit, rfl⟩
  · cases h

instance (fits : Token → Bool) (issue : String → GrammarIssue) :
    Sees places (expect fits issue) where
  sees := by
    rintro stream token after placed eq
    rw [(expect_eq_ok eq).1]
    exact placed.place_head

instance (sign : Char) : Accounted places Stream.Paid (acceptSign sign) := by
  unfold acceptSign
  infer_instance

instance (sign : Char) : Accounted places Stream.Paid (expectSign sign) := by
  unfold expectSign
  infer_instance

instance (sign : Char) : Sees places (expectSign sign) := by
  unfold expectSign
  infer_instance

instance : Accounted places Stream.Paid identifier := by
  unfold identifier
  infer_instance

instance [Cost costs] (change : Surroundings → Surroundings) (rule : Parse α)
    [Accounted places costs rule] : Accounted places costs (surroundedBy change rule) where
  accounts stream placed := by
    have within : Accounts places costs { stream with surroundings := change stream.surroundings }
        (rule { stream with surroundings := change stream.surroundings }) :=
      Accounted.accounts _ { placed with }
    unfold surroundedBy
    cases h : rule { stream with surroundings := change stream.surroundings } with
    | ok a after =>
      rw [h] at within
      exact ⟨Cost.surroundings _ _ _ _ within.cost, { within.placed with }, nofun⟩
    | error error after =>
      rw [h] at within
      refine ⟨Cost.surroundings _ _ _ _ within.cost, { within.placed with }, ?_⟩
      intro other state eq
      cases eq
      exact within.blames error after rfl

instance (thing : Parse α) [Accounted places Stream.Paid thing] (close : Char) (limit : Nat) :
    Accounted places Stream.Paid (separated thing close limit) := by
  induction limit with
  | zero => unfold separated; infer_instance
  | succ limit ih => unfold separated; infer_instance

instance (thing : Parse α) [Accounted places Stream.Paid thing] (limit : Nat) :
    Accounted places Stream.Paid (separatedTight thing limit) := by
  induction limit with
  | zero => unfold separatedTight; infer_instance
  | succ limit ih => unfold separatedTight; infer_instance

/-! ### Recording an error -/

instance (rule : Parse α) [paid : Accounted places Stream.Paid rule] :
    Accounted places Stream.Even rule := paid.even

/-- An error is recorded that a token passed on the way pays for. -/
theorem Accounts.even_record {stream mid after : Stream} {a : α} {error : SyntaxError}
    (paid : stream.Paid mid) (placed : mid.Placed places) (blames : error.Blames places)
    (later : mid.Extends after) (errors : after.errors = mid.errors.push error)
    (passed : after.ahead < stream.ahead) :
    Accounts places Stream.Even stream (.ok a after) where
  cost := by
    refine ⟨Nat.le_of_lt passed, ?_⟩
    have sizes : after.errors.size = mid.errors.size + 1 := by rw [errors, Array.size_push]
    have := later.ahead_le
    have := paid.charge
    change after.errors.size + after.ahead ≤ stream.charge
    unfold Stream.charge at *
    omega
  placed := by
    refine placed.of_extends later ?_
    change ∀ error ∈ after.errors.toList, _
    rw [errors, Array.toList_push]
    exact List.forall_mem_append.mpr ⟨placed.errors, List.forall_mem_singleton.mpr blames⟩
  blames := nofun

theorem record_apply (error : SyntaxError) (stream : Stream) :
    record error stream = .ok () { stream with errors := stream.errors.push error } := rfl

/-- A token is passed, which pays for an error that may be recorded behind it. -/
theorem Accounts.pass_record {rule : Parse Token} {stream : Stream} {condition : Prop}
    [Decidable condition] {error : SyntaxError} {next : Parse β}
    [Accounted places Stream.Even next]
    (first : Accounts places Stream.Paid stream (rule stream))
    (passes : ∀ token after, rule stream = .ok token after → after.ahead < stream.ahead)
    (blames : error.Blames places) :
    Accounts places Stream.Even stream ((do
      let _ ← rule
      if condition then record error
      next : Parse β) stream) := by
  rw [bind_apply]
  cases h : rule stream with
  | error error after =>
    rw [h] at first
    refine ⟨first.cost.even, first.placed, fun other state same => ?_⟩
    cases same
    exact first.blames error after rfl
  | ok token after =>
    have passed := passes token after h
    rw [h] at first
    dsimp only
    split
    · refine Accounts.bind ?_ fun _ behind _ placed => Accounted.accounts behind placed
      exact .even_record first.cost first.placed blames
        (Conservative.ok (record_apply error after)) rfl passed
    · have rest := accounts_of Stream.Even next first.placed
      exact ⟨first.cost.even.trans rest.cost, rest.placed, rest.blames⟩

theorem expectSign_passes {sign : Char} (stream : Stream) (token : Token) (after : Stream)
    (h : expectSign sign stream = .ok token after) : after.ahead < stream.ahead := by
  obtain ⟨rfl, fit, rfl⟩ := expect_eq_ok h
  exact (Stream.tail_of_isEnd_eq_false (Token.isEnd_of_isPunctuation fit)).2

/-- What follows a sign that is passed. -/
theorem accounted_behind_sign {sign : Char} {next : Token → Parse β}
    (behind : ∀ token, Fact (places token.position) →
      Accounted places Stream.Even (next token)) :
    Accounted places Stream.Paid (expectSign sign >>= next) where
  accounts stream placed := by
    have first := accounts_of Stream.Paid (expectSign sign) placed
    have all : Accounts places Stream.Even stream ((expectSign sign >>= next) stream) :=
      (accounted_bind_sees behind).accounts stream placed
    refine ⟨?_, all.placed, all.blames⟩
    rw [bind_apply]
    cases h : expectSign sign stream with
    | error error after =>
      rw [h] at first
      exact first.cost
    | ok token after =>
      have seen : Fact (places token.position) := ⟨Sees.sees stream token after placed h⟩
      have passed := expectSign_passes stream token after h
      rw [h] at first
      have rest := (behind token seen).accounts after first.placed
      exact first.cost.before_even passed rest.cost

/-- Reading goes on behind at least one token after a fault that did not occur at the end. -/
theorem recover_eq_ok {stream : Stream} {before : Nat} (le : stream.ahead ≤ before)
    (notEnd : stream.ahead = before → stream.head.isEnd = false) :
    ∃ after, recover before stream = .ok () after ∧ after.errors = stream.errors ∧
      after.ahead < before := by
  have equation : recover before stream =
      if (stream.skip (boundary stream.rest)).ahead = before then
        .ok () (stream.skip (boundary stream.rest)).tail
      else .ok () (stream.skip (boundary stream.rest)) := by
    change (if (stream.skip (boundary stream.rest)).ahead = before then
      (do let _ ← advance : Parse Unit) else pure ()) (stream.skip (boundary stream.rest)) = _
    split <;> rfl
  rw [equation]
  have fewer : (stream.skip (boundary stream.rest)).ahead =
    stream.ahead - boundary stream.rest := rfl
  split
  · next same =>
    have notEnd := notEnd (by omega)
    have some : 0 < stream.ahead :=
      Nat.lt_of_le_of_lt (Nat.zero_le _) (Stream.tail_of_isEnd_eq_false notEnd).2
    have stays : stream.skip (boundary stream.rest) = stream := by
      have none : boundary stream.rest = 0 := by omega
      rw [none]
      rfl
    rw [stays] at same ⊢
    obtain ⟨errors, passed⟩ := Stream.tail_of_isEnd_eq_false notEnd
    exact ⟨_, rfl, errors, same ▸ passed⟩
  · next other => exact ⟨_, rfl, rfl, by omega⟩

/-- After a fault behind a token that is not the end, the fault is kept and reading goes on at a
place further on. -/
theorem record_recover {stream mid : Stream} (later : stream.Extends mid)
    (notEnd : stream.head.isEnd = false) (error : SyntaxError) :
    ∃ after, (do record error; recover stream.ahead : Parse Unit) mid = .ok () after ∧
      mid.Extends after ∧ after.errors = mid.errors.push error ∧ after.ahead < stream.ahead := by
  have head (same : mid.ahead = stream.ahead) : mid.head.isEnd = false := by
    unfold Stream.head
    rw [later.rest_eq same]
    exact notEnd
  let recorded : Stream := { mid with errors := mid.errors.push error }
  have fewer : recorded.ahead ≤ stream.ahead := later.ahead_le
  obtain ⟨after, eq, errors, passed⟩ := recover_eq_ok fewer head
  have eq : (do record error; recover stream.ahead : Parse Unit) mid = .ok () after := eq
  exact ⟨after, eq, Conservative.ok eq, errors, passed⟩

theorem acceptSign_apply (sign : Char) (stream : Stream) : acceptSign sign stream =
    if stream.head.isPunctuation sign then .ok true stream.tail else .ok false stream := by
  change (if stream.head.isPunctuation sign = true then _ else _ : Parse Bool) stream = _
  split <;> rfl

/-- Two things or more have a comma between them. -/
theorem ahead_lt_of_separatedTight {thing : Parse α} [Conservative thing] {limit : Nat}
    {stream after : Stream} {as : List α} (h : separatedTight thing limit stream = .ok as after)
    (several : 1 < as.length) : after.ahead < stream.ahead := by
  cases limit with
  | zero =>
    cases h
    simp at several
  | succ limit =>
    unfold separatedTight at h
    rw [bind_apply] at h
    cases eq : thing stream with
    | error error mid =>
      rw [eq] at h
      cases h
    | ok first mid =>
      rw [eq] at h
      have le := (Conservative.ok eq).ahead_le
      dsimp only at h
      rw [bind_apply, acceptSign_apply] at h
      by_cases comma : mid.head.isPunctuation ',' = true
      · rw [if_pos comma] at h
        change (do let others ← separatedTight thing limit; pure (first :: others) : Parse _)
          mid.tail = _ at h
        have rest := (Conservative.ok h).ahead_le
        obtain ⟨-, passed⟩ :=
          Stream.tail_of_isEnd_eq_false (Token.isEnd_of_isPunctuation comma)
        omega
      · rw [if_neg comma] at h
        cases h
        simp at several

end Parse

namespace Grammar

open Parse

variable {places : Position → Prop}

/-- Every rule of a level of nesting accounts for its errors. -/
structure AccountedRules (places : Position → Prop) (rules : Rules) : Prop where
  statement : Accounted places Stream.Paid rules.statement
  conditional : Accounted places Stream.Paid rules.conditional
  expression : Accounted places Stream.Paid rules.expression
  operand : Accounted places Stream.Paid rules.operand

/-- Every rule of the levels that are left accounts for its errors. -/
class AccountedLevels (places : Position → Prop) (levels : Levels) : Prop where
  of_mem : ∀ rules ∈ levels, AccountedRules places rules

theorem AccountedLevels.tail {rules : Rules} {levels : Levels}
    (h : AccountedLevels places (rules :: levels)) : AccountedLevels places levels :=
  ⟨fun _ mem => h.of_mem _ (List.mem_cons_of_mem _ mem)⟩

theorem accounted_deeper {α : Type} {levels : Levels} (rule : Rules → Parse α)
    (h : ∀ rules ∈ levels, Accounted places Stream.Paid (rule rules)) :
    Accounted places Stream.Paid (levels.deeper rule) := by
  unfold Levels.deeper
  cases levels with
  | nil => infer_instance
  | cons rules _ => exact h rules (List.mem_cons_self ..)

section

variable (levels : Levels) [AccountedLevels places levels]

instance : Accounted places Stream.Paid (nestedExpression levels) :=
  accounted_deeper _ fun rules mem => (AccountedLevels.of_mem rules mem).expression

instance : Accounted places Stream.Paid (levels.deeper (·.operand)) :=
  accounted_deeper _ fun rules mem => (AccountedLevels.of_mem rules mem).operand

instance : Accounted places Stream.Paid (levels.deeper (·.expression)) :=
  accounted_deeper _ fun rules mem => (AccountedLevels.of_mem rules mem).expression

instance : Accounted places Stream.Paid (levels.deeper (·.statement)) :=
  accounted_deeper _ fun rules mem => (AccountedLevels.of_mem rules mem).statement

instance : Accounted places Stream.Paid (levels.deeper (·.conditional)) :=
  accounted_deeper _ fun rules mem => (AccountedLevels.of_mem rules mem).conditional

end

theorem accounted_chainFrom (joint : Joint) (operand : Levels → Parse Expr)
    (h : ∀ levels [ConservativeLevels levels] [AccountedLevels places levels],
      Accounted places Stream.Paid (operand levels)) (levels : Levels)
    [conservative : ConservativeLevels levels] [accounted : AccountedLevels places levels]
    (left : Expr) : Accounted places Stream.Paid (chainFrom joint operand levels left) := by
  revert conservative accounted
  induction levels generalizing left with
  | nil =>
    intro _ _
    unfold chainFrom
    refine @accounted_bind _ _ _ _ _ _ _ _ fun token => ?_
    split <;> infer_instance
  | cons rules levels ih =>
    intro conservative accounted
    have := conservative.tail
    have := accounted.tail
    have := h levels
    have := fun left => ih left
    unfold chainFrom
    refine @accounted_bind _ _ _ _ _ _ _ _ fun token => ?_
    split <;> infer_instance

theorem accounted_chain (joint : Joint) (operand : Levels → Parse Expr)
    (h : ∀ levels [ConservativeLevels levels] [AccountedLevels places levels],
      Accounted places Stream.Paid (operand levels)) (levels : Levels) [ConservativeLevels levels]
    [AccountedLevels places levels] : Accounted places Stream.Paid (chain joint operand levels) := by
  have := h levels
  have := accounted_chainFrom joint operand h levels
  unfold chain
  infer_instance

/-! ### Reading statements -/

section

variable {levels : Levels} {stops : Token → Bool} {limit : Nat} {stream mid : Stream}

theorem items_of_stop (stop : (stream.head.isEnd || stops stream.head) = true) :
    items levels stops limit stream = .ok [] stream := by
  cases limit with
  | zero => rfl
  | succ limit =>
    unfold items
    rw [bind_apply]
    change (if (stream.head.isEnd || stops stream.head) = true then _ else _ : Parse _) stream = _
    rw [if_pos stop]
    rfl

theorem items_succ (goesOn : (stream.head.isEnd || stops stream.head) = false) :
    items levels stops (limit + 1) stream =
      (do
        match ← outcome (levels.deeper (·.statement)) with
        | .ok stmt => do
          let others ← items levels stops limit
          pure (stmt :: others)
        | .error error => do
          record error
          recover stream.ahead
          items levels stops limit : Parse (List Stmt)) stream := by
  conv => lhs; unfold items
  rw [bind_apply]
  change (if (stream.head.isEnd || stops stream.head) = true then _ else _ : Parse _) stream = _
  rw [if_neg (by simp [goesOn])]
  rfl

theorem items_of_ok {stmt : Stmt} (goesOn : (stream.head.isEnd || stops stream.head) = false)
    (h : levels.deeper (·.statement) stream = .ok stmt mid) :
    items levels stops (limit + 1) stream =
      (do let others ← items levels stops limit; pure (stmt :: others) : Parse _) mid := by
  rw [items_succ goesOn, bind_apply]
  unfold outcome
  rw [h]

theorem items_of_error {error : SyntaxError}
    (goesOn : (stream.head.isEnd || stops stream.head) = false)
    (h : levels.deeper (·.statement) stream = .error error mid) :
    items levels stops (limit + 1) stream =
      ((do record error; recover stream.ahead : Parse Unit) >>= fun _ =>
        items levels stops limit) mid := by
  rw [items_succ goesOn, bind_apply]
  unfold outcome
  rw [h]
  rfl

/-- Reading statements does not fail. -/
theorem items_eq_ok (levels : Levels) [ConservativeLevels levels] (stops : Token → Bool) (limit : Nat)
    (stream : Stream) : ∃ stmts after, items levels stops limit stream = .ok stmts after := by
  induction limit generalizing stream with
  | zero => exact ⟨_, _, rfl⟩
  | succ limit ih =>
    cases goesOn : stream.head.isEnd || stops stream.head with
    | true => exact ⟨_, _, items_of_stop goesOn⟩
    | false =>
      cases h : levels.deeper (·.statement) stream with
      | ok stmt mid =>
        obtain ⟨others, after, eq⟩ := ih mid
        exact ⟨stmt :: others, after, by rw [items_of_ok goesOn h, bind_apply, eq]; rfl⟩
      | error error mid =>
        have notEnd := (Bool.or_eq_false_iff.mp goesOn).1
        obtain ⟨behind, recovered, -⟩ := record_recover (Conservative.error h) notEnd error
        obtain ⟨others, after, eq⟩ := ih behind
        exact ⟨others, after, by rw [items_of_error goesOn h, bind_apply, recovered]; exact eq⟩

instance [ConservativeLevels levels] [AccountedLevels places levels] :
    Accounted places Stream.Even (items levels stops limit) := by
  induction limit with
  | zero => unfold items; infer_instance
  | succ limit ih =>
    constructor
    intro stream placed
    cases goesOn : stream.head.isEnd || stops stream.head with
    | true =>
      rw [items_of_stop goesOn]
      exact accounts_of Stream.Even (pure []) placed
    | false =>
      have first : Accounts places Stream.Paid stream (levels.deeper (·.statement) stream) :=
        Accounted.accounts stream placed
      cases h : levels.deeper (·.statement) stream with
      | ok stmt mid =>
        rw [h] at first
        have rest := accounts_of Stream.Even
          (do let others ← items levels stops limit; pure (stmt :: others)) first.placed
        rw [items_of_ok goesOn h]
        exact ⟨first.cost.even.trans rest.cost, rest.placed, rest.blames⟩
      | error error mid =>
        rw [h] at first
        have notEnd := (Bool.or_eq_false_iff.mp goesOn).1
        obtain ⟨behind, recovered, later, errors, passed⟩ :=
          record_recover (Conservative.error h) notEnd error
        have blames := first.blames error mid rfl
        rw [items_of_error goesOn h]
        refine Accounts.bind ?_ fun _ after _ placed => ih.accounts after placed
        rw [recovered]
        exact .even_record first.cost first.placed blames later errors passed

end

/-! ### The other rules -/

section

variable (levels : Levels) [ConservativeLevels levels] [AccountedLevels places levels]

instance : Accounted places Stream.Paid (block levels) := by
  unfold block
  exact accounted_behind_sign fun _ _ => inferInstance

omit [ConservativeLevels levels] [AccountedLevels places levels] in
theorem arguments_apply (opening : Token) (stream : Stream) :
    arguments levels opening stream =
      if stream.head.isPunctuation ')' then .ok [] stream.tail
      else (do
        let args ← separatedTight (nestedExpression levels) (stream.ahead + 1)
        let _ ← expectSign ')'
        if maxArguments < args.length then
          record ⟨.grammatical (.tooManyArguments args.length), opening.position⟩
        pure args : Parse (List Expr)) stream := by
  unfold arguments
  rw [bind_apply, acceptSign_apply]
  by_cases closes : stream.head.isPunctuation ')' = true
  · rw [if_pos closes, if_pos closes]
    rfl
  · rw [if_neg closes, if_neg closes]
    rfl

/-- More arguments than there may be have commas between them, which pay for the error. -/
instance (opening : Token) [blamed : Fact (places opening.position)] :
    Accounted places Stream.Paid (arguments levels opening) where
  accounts stream placed := by
    rw [arguments_apply]
    split
    · have passed := accounts_of Stream.Paid advance placed
      exact ⟨passed.cost, passed.placed, nofun⟩
    · have first := accounts_of Stream.Paid
        (separatedTight (nestedExpression levels) (stream.ahead + 1)) placed
      rw [bind_apply]
      cases h : separatedTight (nestedExpression levels) (stream.ahead + 1) stream with
      | error error after =>
        rw [h] at first
        refine ⟨first.cost, first.placed, fun other state same => ?_⟩
        cases same
        exact first.blames error after rfl
      | ok args after =>
        rw [h] at first
        by_cases many : maxArguments < args.length
        · have several : 1 < args.length := Nat.lt_of_le_of_lt (by decide) many
          have comma := ahead_lt_of_separatedTight h several
          have rest : Accounts places Stream.Even after ((do
              let _ ← expectSign ')'
              if maxArguments < args.length then
                record ⟨.grammatical (.tooManyArguments args.length), opening.position⟩
              pure args : Parse (List Expr)) after) :=
            .pass_record (Accounted.accounts after first.placed) (expectSign_passes after)
              ⟨rfl, blamed.out⟩
          exact ⟨first.cost.before_even comma rest.cost, rest.placed, rest.blames⟩
        · dsimp only
          simp only [if_neg many]
          have rest := accounts_of Stream.Paid (do let _ ← expectSign ')'; pure args) first.placed
          exact ⟨first.cost.trans rest.cost, rest.placed, rest.blames⟩

instance (opening : Token) (name : Option Identifier) :
    Accounted places Stream.Paid (functionFrom levels opening name) := by
  unfold functionFrom
  refine accounted_behind_sign fun parenthesis blamed => ?_
  refine @accounted_bind _ _ _ _ _ _ _ _ fun limit => ?_
  refine @accounted_bind _ _ _ _ _ _ _ _ fun params => ⟨fun stream placed => ?_⟩
  exact .pass_record (Accounted.accounts stream placed) (expectSign_passes stream)
    ⟨rfl, blamed.out⟩

instance (owner : Expr) : Accounted places Stream.Paid (memberOf levels owner) := by
  unfold memberOf
  infer_instance

instance (owner : Expr) : Accounted places Stream.Paid (membersFrom levels owner) := by
  rename_i conservative accounted
  revert conservative accounted
  induction levels generalizing owner with
  | nil => intro _ _; unfold membersFrom; infer_instance
  | cons rules levels ih =>
    intro conservative accounted
    have := conservative.tail
    have := accounted.tail
    have := fun owner => ih owner
    unfold membersFrom
    infer_instance

instance (callee : Expr) : Accounted places Stream.Paid (callsFrom levels callee) := by
  rename_i conservative accounted
  revert conservative accounted
  induction levels generalizing callee with
  | nil => intro _ _; unfold callsFrom; infer_instance
  | cons rules levels ih =>
    intro conservative accounted
    have := conservative.tail
    have := accounted.tail
    have := fun callee => ih callee
    unfold callsFrom
    exact accounted_bind_sees fun token _ => inferInstance

instance : Accounted places Stream.Paid (entry levels) := by
  unfold entry
  refine accounted_bind_sees fun token _ => ?_
  dsimp only
  repeat' split
  all_goals infer_instance

instance : Accounted places Stream.Paid (atom levels) := by
  unfold atom
  refine accounted_bind_sees fun token _ => ?_
  repeat' split
  all_goals infer_instance

instance : Accounted places Stream.Paid constructors := .of_ok fun _ => ⟨_, _, rfl, rfl⟩

instance (keyword : Token) (callee : Expr) :
    Accounted places Stream.Paid (constructFrom levels keyword callee) := by
  unfold constructFrom
  refine @accounted_bind _ _ _ _ _ _ _ _ fun callee => ?_
  exact accounted_bind_sees fun token _ => inferInstance

instance (keywords : List Token) (first : Expr) :
    Accounted places Stream.Paid (keywords.foldrM (constructFrom levels) first) := by
  induction keywords with
  | nil => rw [List.foldrM_nil]; infer_instance
  | cons keyword keywords ih => rw [List.foldrM_cons]; infer_instance

instance : Accounted places Stream.Paid (primary levels) := by
  unfold primary
  infer_instance

instance : Accounted places Stream.Paid (updated levels) := by
  have (target : Expr) (token : Token) : Accounted places Stream.Paid (match stepOp? token with
      | none => pure target
      | some op =>
        if target.isReference then do
          let _ ← advance
          pure (.update op false target token.position)
        else failHere .invalidUpdateTarget : Parse Expr) := by
    split <;> infer_instance
  unfold updated
  infer_instance

instance : Accounted places Stream.Paid (operand levels) := by
  unfold operand
  refine accounted_bind_sees fun token _ => ?_
  repeat' split
  all_goals infer_instance

end

section

variable (levels : Levels) [ConservativeLevels levels] [AccountedLevels places levels]

instance : Accounted places Stream.Paid (disjunction levels) := by
  unfold disjunction conjunction equality comparison sum product
  iterate 5 refine accounted_chain _ _ (fun _ _ _ => ?_) _
  exact accounted_chain _ _ (fun _ _ _ => inferInstance) _

instance : Accounted places Stream.Paid (assignment levels) := by
  unfold assignment
  refine @accounted_bind _ _ _ _ _ _ _ _ fun target => ?_
  refine @accounted_bind _ _ _ _ _ _ _ _ fun token => ?_
  split <;> infer_instance

instance : Accounted places Stream.Paid (parenthesizedExpression levels) := by
  unfold parenthesizedExpression
  infer_instance

instance : Accounted places Stream.Paid (declaration levels) := by
  unfold declaration
  infer_instance

instance : Accounted places Stream.Paid (functionDeclaration levels) := by
  unfold functionDeclaration
  infer_instance

instance : Accounted places Stream.Paid (nestedStatement levels) := by
  unfold nestedStatement
  infer_instance

instance : Accounted places Stream.Paid (conditional levels) := by
  unfold conditional
  infer_instance

instance : Accounted places Stream.Paid (loopBody levels) := by
  unfold loopBody
  infer_instance

instance : Accounted places Stream.Paid (whileLoop levels) := by
  unfold whileLoop
  infer_instance

instance : Accounted places Stream.Paid (doWhileLoop levels) := by
  unfold doWhileLoop
  infer_instance

instance : Accounted places Stream.Paid (loopStart levels) := by
  unfold loopStart
  infer_instance

instance (sign : Char) : Accounted places Stream.Paid (expressionUnless levels sign) := by
  unfold expressionUnless
  infer_instance

instance : Accounted places Stream.Paid (forLoop levels) := by
  unfold forLoop
  infer_instance

instance : Accounted places Stream.Paid (handler levels) := by
  unfold handler
  infer_instance

instance : Accounted places Stream.Paid (finalizer levels) := by
  unfold finalizer
  infer_instance

instance : Accounted places Stream.Paid (attempt levels) := by
  unfold attempt
  infer_instance

instance (test : Option Expr) : Accounted places Stream.Paid (clauseFrom levels test) := by
  unfold clauseFrom
  exact accounted_behind_sign fun _ _ => inferInstance

instance (hasDefault : Bool) (limit : Nat) :
    Accounted places Stream.Even (clauses levels hasDefault limit) := by
  induction limit generalizing hasDefault with
  | zero => unfold clauses; infer_instance
  | succ limit ih =>
    constructor
    intro stream placed
    have head : Fact (places stream.head.position) := ⟨placed.place_head⟩
    unfold clauses
    rw [bind_apply]
    dsimp only [peek]
    split
    · exact Accounted.accounts stream placed
    · split
      · next word =>
        refine .pass_record (Accounted.accounts stream placed) ?_ ⟨rfl, head.out⟩
        intro token after eq
        cases eq
        exact (Stream.tail_of_isEnd_eq_false (Token.isEnd_of_isKeyword word)).2
      · split
        · exact Accounted.accounts stream placed
        · next other =>
          rw [Bool.or_eq_true, not_or, Bool.not_eq_true, Bool.not_eq_true] at other
          let error : SyntaxError :=
            ⟨.grammatical (.missingCase stream.head.display), stream.head.position⟩
          obtain ⟨behind, recovered, later, errors, passed⟩ :=
            record_recover (.refl stream) other.2 error
          change Accounts _ _ _ (((do record error; recover stream.ahead : Parse Unit) >>= fun _ =>
            clauses levels hasDefault limit) stream)
          refine Accounts.bind ?_ fun _ after _ placed => (ih hasDefault).accounts after placed
          rw [recovered]
          have here := (Stream.Extends.refl stream).paid rfl
          exact .even_record here placed ⟨rfl, head.out⟩ later errors passed

instance : Accounted places Stream.Paid (choice levels) := by
  unfold choice
  have (subject : Expr) : Accounted places Stream.Paid (do
      let _ ← expectSign '\x7b'
      let cases ← clauses levels false (← remaining)
      let _ ← expectSign '\x7d'
      pure (.choice subject cases) : Parse Stmt) :=
    accounted_behind_sign fun _ _ => inferInstance
  infer_instance

instance : Accounted places Stream.Paid (giveBack levels) := by
  unfold giveBack
  exact accounted_bind_sees fun keyword _ => inferInstance

instance : Accounted places Stream.Paid leave := by
  unfold leave
  exact accounted_bind_sees fun keyword _ => inferInstance

instance : Accounted places Stream.Paid next := by
  unfold next
  exact accounted_bind_sees fun keyword _ => inferInstance

instance (rule : Parse Stmt) [Accounted places Stream.Paid rule] :
    Accounted places Stream.Paid (terminated rule) := by
  unfold terminated
  infer_instance

instance : Accounted places Stream.Paid (evaluation levels) := by
  unfold evaluation
  infer_instance

instance : Accounted places Stream.Paid (statement levels) := by
  unfold statement
  refine @accounted_bind _ _ _ _ _ _ _ _ fun token => ?_
  repeat' split
  all_goals infer_instance

end

instance (n : Nat) : AccountedLevels places (Grammar.levels n) := by
  induction n with
  | zero => exact ⟨by simp [Grammar.levels]⟩
  | succ n ih =>
    refine ⟨fun rules mem => ?_⟩
    rcases List.mem_cons.mp mem with rfl | mem
    · exact ⟨inferInstanceAs (Accounted places Stream.Paid (statement _)),
        inferInstanceAs (Accounted places Stream.Paid (conditional _)),
        inferInstanceAs (Accounted places Stream.Paid (assignment _)),
        inferInstanceAs (Accounted places Stream.Paid (operand _))⟩
    · exact ih.of_mem rules mem

end Grammar

end DarijaScript
