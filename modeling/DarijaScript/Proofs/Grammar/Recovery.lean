import DarijaScript.Proofs.Grammar.Accounting

/-!
# Reading ends and blames tokens

A statement that was read passed a token, and so does reading that goes on behind a fault, so the
limits of the loops are never what stops them. Reading a program therefore comes to the end of the
file, and by the accounting of errors there are no more of them than tokens in front of it.
-/

set_option synthInstance.maxSize 1000

namespace DarijaScript

open Parse Grammar

namespace Parse

variable {α β : Type}

/-! ### Rules that pass a token -/

/-- A rule that succeeds has passed a token. -/
class Advances (rule : Parse α) : Prop where
  ahead_lt : ∀ stream a after, rule stream = .ok a after → after.ahead < stream.ahead

instance Advances.bind_left {rule : Parse α} {next : α → Parse β} [first : Advances rule]
    [∀ a, Conservative (next a)] : Advances (rule >>= next) where
  ahead_lt stream b after eq := by
    rw [bind_apply] at eq
    cases h : rule stream with
    | error error mid =>
      rw [h] at eq
      cases eq
    | ok a mid =>
      rw [h] at eq
      have rest := (Conservative.ok eq).ahead_le
      exact Nat.lt_of_le_of_lt rest (first.ahead_lt stream a mid h)

instance Advances.bind_right {rule : Parse α} {next : α → Parse β} [Conservative rule]
    [rest : ∀ a, Advances (next a)] : Advances (rule >>= next) where
  ahead_lt stream b after eq := by
    rw [bind_apply] at eq
    cases h : rule stream with
    | error error mid =>
      rw [h] at eq
      cases eq
    | ok a mid =>
      rw [h] at eq
      have first := (Conservative.ok h).ahead_le
      exact Nat.lt_of_lt_of_le ((rest a).ahead_lt mid b after eq) first

instance (condition : Prop) [Decidable condition] (rule other : Parse α) [Advances rule]
    [Advances other] : Advances (if condition then rule else other) := by
  split <;> infer_instance

instance (token : Token) (issue : GrammarIssue) : Advances (failAt token issue : Parse α) :=
  ⟨nofun⟩

theorem advances_expect {fits : Token → Bool} {issue : String → GrammarIssue}
    (notEnd : ∀ token, fits token = true → token.isEnd = false) :
    Advances (expect fits issue) where
  ahead_lt stream token after eq := by
    obtain ⟨rfl, fit, rfl⟩ := expect_eq_ok eq
    exact (Stream.tail_of_isEnd_eq_false (notEnd _ fit)).2

instance (sign : Char) : Advances (expectSign sign) :=
  advances_expect fun _ => Token.isEnd_of_isPunctuation

instance : Advances identifier := by
  have name : Advances (expect (·.kind == .identifier) .missingIdentifier) := by
    refine advances_expect fun token fit => ?_
    rw [beq_iff_eq] at fit
    simp [Token.isEnd, fit]
  unfold identifier
  infer_instance

end Parse

namespace Grammar

section

variable (levels : Levels) [ConservativeLevels levels]

instance : Advances (block levels) := by
  unfold block
  infer_instance

instance : Advances (parenthesizedExpression levels) := by
  unfold parenthesizedExpression
  infer_instance

instance (rule : Parse Stmt) [Conservative rule] : Advances (terminated rule) := by
  unfold terminated
  infer_instance

instance : Advances (functionDeclaration levels) := by
  unfold functionDeclaration
  infer_instance

instance : Advances (conditional levels) := by
  unfold conditional
  infer_instance

instance : Advances (whileLoop levels) := by
  unfold whileLoop
  infer_instance

instance : Advances (forLoop levels) := by
  unfold forLoop
  infer_instance

instance : Advances (attempt levels) := by
  unfold attempt
  infer_instance

instance : Advances (choice levels) := by
  unfold choice
  infer_instance

instance : Advances (statement levels) where
  ahead_lt stream stmt after eq := by
    unfold statement at eq
    rw [bind_apply] at eq
    dsimp only [peek] at eq
    split at eq
    · exact Advances.ahead_lt stream stmt after eq
    · split at eq
      · next semicolon =>
        cases eq
        exact (Stream.tail_of_isEnd_eq_false (Token.isEnd_of_isPunctuation semicolon)).2
      · generalize stream.head.keyword? = word at eq
        cases word with
        | none => exact Advances.ahead_lt stream stmt after eq
        | some keyword => cases keyword <;> exact Advances.ahead_lt stream stmt after eq

end

instance (n : Nat) : Advances (nestedStatement (Grammar.levels n)) := by
  cases n with
  | zero => exact ⟨nofun⟩
  | succ n => exact inferInstanceAs (Advances (statement (Grammar.levels n)))

end Grammar

/-! ### The limits of the loops -/

namespace Parse

variable {α β : Type} {stream : Stream}

theorem isEnd_head_of_ahead_eq_zero (none : stream.ahead = 0) : stream.head.isEnd = true := by
  have empty := List.length_eq_zero_iff.mp (stream.ahead_eq ▸ none)
  unfold Stream.head
  rw [empty]
  rfl

/-- What follows a rule only has to agree where no more tokens are ahead than before. -/
theorem bind_congr_behind {rule : Parse α} [Conservative rule] {next next' : α → Parse β}
    (h : ∀ a after, after.ahead ≤ stream.ahead → next a after = next' a after) :
    (rule >>= next) stream = (rule >>= next') stream := by
  cases eq : rule stream with
  | error error mid => rw [bind_of_error eq, bind_of_error eq]
  | ok a mid =>
    rw [bind_of_ok eq, bind_of_ok eq]
    exact h a mid (Conservative.ok eq).ahead_le

theorem bind_congr_first {rule rule' : Parse α} {next : α → Parse β}
    (h : rule stream = rule' stream) : (rule >>= next) stream = (rule' >>= next) stream := by
  rw [bind_apply, bind_apply, h]

section

variable {thing : Parse α} [Conservative thing] {limit limit' : Nat}

/-- Behind a comma fewer tokens are ahead. -/
theorem acceptComma_congr {next next' : Bool → Parse β}
    (h : ∀ after, after.ahead < stream.ahead → next true after = next' true after)
    (h' : next false stream = next' false stream) :
    (acceptSign ',' >>= next) stream = (acceptSign ',' >>= next') stream := by
  rw [bind_apply, bind_apply, acceptSign_apply]
  by_cases comma : stream.head.isPunctuation ',' = true
  · rw [if_pos comma]
    exact h _ (Stream.tail_of_isEnd_eq_false (Token.isEnd_of_isPunctuation comma)).2
  · rw [if_neg comma]
    exact h'

theorem separatedTight_limit (enough : stream.ahead < limit) (enough' : stream.ahead < limit') :
    separatedTight thing limit stream = separatedTight thing limit' stream := by
  induction limit generalizing limit' stream with
  | zero => omega
  | succ limit ih =>
    obtain ⟨limit', rfl⟩ : ∃ fewer, limit' = fewer + 1 := ⟨limit' - 1, by omega⟩
    unfold separatedTight
    refine bind_congr_behind fun first mid le => acceptComma_congr (fun after passed => ?_) rfl
    exact bind_congr_first (ih (by omega) (by omega))

theorem separated_limit (close : Char) (enough : stream.ahead < limit)
    (enough' : stream.ahead < limit') :
    separated thing close limit stream = separated thing close limit' stream := by
  induction limit generalizing limit' stream with
  | zero => omega
  | succ limit ih =>
    obtain ⟨limit', rfl⟩ : ∃ fewer, limit' = fewer + 1 := ⟨limit' - 1, by omega⟩
    unfold separated
    refine bind_congr_behind fun token start le => ?_
    split
    · rfl
    · refine bind_congr_behind fun first mid le' => acceptComma_congr (fun after passed => ?_) rfl
      exact bind_congr_first (ih (by omega) (by omega))

end

end Parse

namespace Grammar

variable {levels : Levels} [ConservativeLevels levels] {limit limit' : Nat} {stream : Stream}

omit [ConservativeLevels levels] in
theorem ahead_lt_of_statement [statements : Advances (nestedStatement levels)] {stmt : Stmt}
    {mid : Stream} (h : levels.deeper (·.statement) stream = .ok stmt mid) :
    mid.ahead < stream.ahead :=
  statements.ahead_lt stream stmt mid h

/-- Every limit that is not less than the number of tokens ahead is as good as another. -/
theorem items_limit [Advances (nestedStatement levels)] (stops : Token → Bool)
    (enough : stream.ahead ≤ limit) (enough' : stream.ahead ≤ limit') :
    items levels stops limit stream = items levels stops limit' stream := by
  induction limit generalizing limit' stream with
  | zero =>
    have ends := isEnd_head_of_ahead_eq_zero (Nat.le_zero.mp enough)
    rw [items_of_stop (by simp [ends]), items_of_stop (by simp [ends])]
  | succ limit ih =>
    cases goesOn : stream.head.isEnd || stops stream.head with
    | true => rw [items_of_stop goesOn, items_of_stop goesOn]
    | false =>
      have notEnd := (Bool.or_eq_false_iff.mp goesOn).1
      have some := (Stream.tail_of_isEnd_eq_false notEnd).2
      obtain ⟨limit', rfl⟩ : ∃ fewer, limit' = fewer + 1 := ⟨limit' - 1, by omega⟩
      cases h : levels.deeper (·.statement) stream with
      | ok stmt mid =>
        have passed := ahead_lt_of_statement h
        rw [items_of_ok goesOn h, items_of_ok goesOn h]
        exact bind_congr_first (ih (by omega) (by omega))
      | error error mid =>
        obtain ⟨behind, recovered, -, -, passed⟩ :=
          record_recover (Conservative.error h) notEnd error
        rw [items_of_error goesOn h, items_of_error goesOn h, bind_of_ok recovered,
          bind_of_ok recovered]
        exact ih (by omega) (by omega)

omit [ConservativeLevels levels] in
theorem clauses_of_isEnd {hasDefault : Bool} (ends : stream.head.isEnd = true) :
    clauses levels hasDefault limit stream = .ok [] stream := by
  have noWord := Token.isKeyword_eq_false_of_isEnd ends
  cases limit with
  | zero => rfl
  | succ limit =>
    unfold clauses
    rw [bind_apply]
    dsimp only [peek]
    simp only [noWord, ends, Bool.or_true, Bool.false_eq_true, if_false, if_true]
    rfl

theorem clauses_limit {hasDefault : Bool} (enough : stream.ahead ≤ limit)
    (enough' : stream.ahead ≤ limit') :
    clauses levels hasDefault limit stream = clauses levels hasDefault limit' stream := by
  induction limit generalizing hasDefault limit' stream with
  | zero =>
    have ends := isEnd_head_of_ahead_eq_zero (Nat.le_zero.mp enough)
    rw [clauses_of_isEnd ends, clauses_of_isEnd ends]
  | succ limit ih =>
    cases ends : stream.head.isEnd with
    | true => rw [clauses_of_isEnd ends, clauses_of_isEnd ends]
    | false =>
      have passed := (Stream.tail_of_isEnd_eq_false ends).2
      obtain ⟨limit', rfl⟩ : ∃ fewer, limit' = fewer + 1 := ⟨limit' - 1, by omega⟩
      unfold clauses
      rw [bind_apply, bind_apply]
      dsimp only [peek]
      split
      · change (nestedExpression levels >>= _) stream.tail =
          (nestedExpression levels >>= _) stream.tail
        refine bind_congr_behind fun test mid le => bind_congr_behind fun first after le' => ?_
        exact bind_congr_first (ih (by omega) (by omega))
      · split
        · change (if hasDefault = true then _ else _ : Parse _) stream.tail =
            (if hasDefault = true then _ else _ : Parse _) stream.tail
          have rest (mid : Stream) (le : mid.ahead ≤ stream.tail.ahead) :
              (do
                let first ← clauseFrom levels none
                let others ← clauses levels true limit
                pure (first :: others) : Parse (List Case)) mid =
              (do
                let first ← clauseFrom levels none
                let others ← clauses levels true limit'
                pure (first :: others) : Parse (List Case)) mid := by
            refine bind_congr_behind fun first after le' => ?_
            exact bind_congr_first (ih (by omega) (by omega))
          split
          · exact bind_congr_behind fun _ mid le => rest mid le
          · exact rest stream.tail (Nat.le_refl _)
        · split
          · rfl
          · let error : SyntaxError :=
              ⟨.grammatical (.missingCase stream.head.display), stream.head.position⟩
            obtain ⟨behind, recovered, -, -, passed⟩ := record_recover (.refl stream) ends error
            change (((do record error; recover stream.ahead : Parse Unit) >>= fun _ =>
              clauses levels hasDefault limit) stream) =
                (((do record error; recover stream.ahead : Parse Unit) >>= fun _ =>
                  clauses levels hasDefault limit') stream)
            rw [bind_of_ok recovered, bind_of_ok recovered]
            exact ih (by omega) (by omega)

/-- Statements are read up to a token that stops them or to the end of the file. -/
theorem items_stop [Advances (nestedStatement levels)] {stops : Token → Bool} {stmts : List Stmt}
    {after : Stream} (enough : stream.ahead ≤ limit)
    (h : items levels stops limit stream = .ok stmts after) :
    (after.head.isEnd || stops after.head) = true := by
  induction limit generalizing stream stmts with
  | zero =>
    cases h
    rw [isEnd_head_of_ahead_eq_zero (Nat.le_zero.mp enough), Bool.true_or]
  | succ limit ih =>
    cases goesOn : stream.head.isEnd || stops stream.head with
    | true =>
      rw [items_of_stop goesOn] at h
      cases h
      exact goesOn
    | false =>
      have notEnd := (Bool.or_eq_false_iff.mp goesOn).1
      cases first : levels.deeper (·.statement) stream with
      | ok stmt mid =>
        have passed := ahead_lt_of_statement first
        obtain ⟨others, behind, eq⟩ := items_eq_ok levels stops limit mid
        rw [items_of_ok goesOn first, bind_of_ok eq] at h
        cases h
        exact ih (by omega) eq
      | error error mid =>
        obtain ⟨behind, recovered, -, -, passed⟩ :=
          record_recover (Conservative.error first) notEnd error
        rw [items_of_error goesOn first, bind_of_ok recovered] at h
        exact ih (by omega) h

/-- No loop is ever stopped by its limit. -/
structure Unhindered (levels : Levels) : Prop where
  items : ∀ stops limit stream, stream.ahead ≤ limit →
    items levels stops limit stream = items levels stops stream.ahead stream
  clauses : ∀ hasDefault limit stream, stream.ahead ≤ limit →
    clauses levels hasDefault limit stream = clauses levels hasDefault stream.ahead stream
  parameters : ∀ limit stream, stream.ahead < limit →
    separated identifier ')' limit stream = separated identifier ')' (stream.ahead + 1) stream
  arguments : ∀ limit stream, stream.ahead < limit →
    separatedTight (nestedExpression levels) limit stream =
      separatedTight (nestedExpression levels) (stream.ahead + 1) stream
  elements : ∀ limit stream, stream.ahead < limit →
    separated (nestedExpression levels) ']' limit stream =
      separated (nestedExpression levels) ']' (stream.ahead + 1) stream
  entries : ∀ limit stream, stream.ahead < limit →
    separated (entry levels) '\x7d' limit stream =
      separated (entry levels) '\x7d' (stream.ahead + 1) stream

theorem unhindered [Advances (nestedStatement levels)] : Unhindered levels where
  items stops _ _ enough := items_limit stops enough (Nat.le_refl _)
  clauses _ _ _ enough := clauses_limit enough (Nat.le_refl _)
  parameters _ _ enough := separated_limit ')' enough (Nat.lt_succ_self _)
  arguments _ _ enough := separatedTight_limit enough (Nat.lt_succ_self _)
  elements _ _ enough := separated_limit ']' enough (Nat.lt_succ_self _)
  entries _ _ enough := separated_limit '\x7d' enough (Nat.lt_succ_self _)

end Grammar

/-! ### Programs -/

/-- A place that an error may be blamed on: that of one of the tokens, or the unknown one where no
token is an end of the file. -/
def Blamable (tokens : List Token) (position : Position) : Prop :=
  (∃ token ∈ tokens, token.position = position) ∨
    (∀ token ∈ tokens, token.isEnd = false) ∧ position = .unknown

theorem placed_ofTokens (tokens : List Token) (source : Nat) :
    (Stream.ofTokens tokens source).Placed (Blamable tokens) where
  tokens := fun token mem => .inl ⟨token, mem, rfl⟩
  ending := fun noEnd => .inr ⟨noEnd, rfl⟩
  errors := nofun

section

variable {tokens : List Token} {source : Nat} {program : List Stmt} {after : Stream}
  (read : items (levels maxLevels) (fun _ => false) tokens.length (Stream.ofTokens tokens source) =
    .ok program after)

include read

/-- There is a program just if no error was recorded. -/
theorem parse_eq_ok_iff {program' : List Stmt} :
    parse tokens source = .ok program' ↔ after.errors = #[] ∧ program' = program := by
  unfold parse
  rw [read]
  by_cases none : after.errors = #[]
  · simp [none, eq_comm]
  · simp [none]

/-- Otherwise there are the recorded errors. -/
theorem parse_eq_error_iff {errors : List SyntaxError} :
    parse tokens source = .error errors ↔ errors ≠ [] ∧ errors = after.errors.toList := by
  have empty : after.errors = #[] ↔ after.errors.toList = [] := by simp
  unfold parse
  rw [read]
  by_cases none : after.errors = #[]
  · simp [none]
  · simp only [Array.isEmpty_iff, none, if_false, Except.error.injEq]
    constructor
    · rintro rfl
      exact ⟨mt empty.mpr none, rfl⟩
    · exact fun eq => eq.2.symm

/-- Every error is paid for by a token that was passed, and none of these is the end of the file. -/
theorem size_errors_le (cost : Stream.Even (Stream.ofTokens tokens source) after) :
    after.errors.size ≤ tokens.countP (fun token => !token.isEnd) := by
  obtain ⟨passed, eq, notEnd⟩ := (Conservative.ok read).passed
  have eq : tokens = passed ++ after.rest := eq
  have counted : passed.countP (fun token => !token.isEnd) = passed.length :=
    List.countP_eq_length.mpr fun token mem => by simp [notEnd token mem]
  have charge : after.errors.size + after.ahead ≤ 0 + tokens.length := cost.charge
  have lengths := congrArg List.length eq
  rw [List.length_append] at lengths
  rw [eq, List.countP_append, counted]
  have := after.ahead_eq
  omega

end

/-- **Reading any tokens ends, and its errors are blamed on tokens.** Whatever the tokens are, reading
a program from them comes to the end of the file, and no limit of a loop is what stops it. There is
a program just if no error was recorded, and otherwise there are the recorded errors. Each of these
is blamed on one of the tokens, or on the unknown place behind the last one where no token is an end
of the file, and there are no more of them than tokens that are not the end. -/
theorem parse_recovers (tokens : List Token) (source : Nat) :
    ∃ program after,
      (∀ limit, tokens.length ≤ limit → items (levels maxLevels) (fun _ => false) limit
        (Stream.ofTokens tokens source) = .ok program after) ∧
      (∀ n, Unhindered (levels n)) ∧
      after.head.isEnd = true ∧
      (∀ program', parse tokens source = .ok program' ↔
        after.errors = #[] ∧ program' = program) ∧
      (∀ errors, parse tokens source = .error errors ↔
        errors ≠ [] ∧ errors = after.errors.toList) ∧
      (∀ error ∈ after.errors.toList,
        error.stage = .parsing ∧ Blamable tokens error.position) ∧
      after.errors.size ≤ tokens.countP (fun token => !token.isEnd) := by
  obtain ⟨program, after, read⟩ := items_eq_ok (levels maxLevels) (fun _ => false) tokens.length
    (Stream.ofTokens tokens source)
  have accounts := accounts_of Stream.Even
    (items (levels maxLevels) (fun _ => false) tokens.length) (placed_ofTokens tokens source)
  rw [read] at accounts
  refine ⟨program, after, fun limit enough => ?_, fun n => unhindered, ?_,
    fun program' => parse_eq_ok_iff read, fun errors => parse_eq_error_iff read,
    fun error mem => ?_, size_errors_le read accounts.cost⟩
  · rw [← read]
    exact items_limit _ enough (Nat.le_refl _)
  · have enough : (Stream.ofTokens tokens source).ahead ≤ tokens.length := Nat.le_refl _
    simpa using items_stop enough read
  · obtain ⟨stage, place⟩ := accounts.placed.errors error mem
    exact ⟨stage, place⟩

end DarijaScript
