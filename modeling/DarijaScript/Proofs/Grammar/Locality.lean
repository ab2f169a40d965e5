import DarijaScript.Proofs.Grammar.Head
import DarijaScript.Proofs.Grammar.Recovery

/-!
# What a rule sees

A rule that reads without an error sees no more than the tokens that it passes and the next one
behind them. Where a statement ends, even of the next one it only matters whether it is one of the
words that go on with a statement. The class `Local` is closed under the steps that rules are made
of.
-/

set_option synthInstance.maxSize 1000

namespace DarijaScript

open Parse

namespace Parse

variable {α β : Type} {alike : Token → Token → Prop} {around : Surroundings} {source : Nat}

/-! ### The tokens that are passed -/

theorem Gives.passed {rule : Parse α} [Conservative rule] {before after : List Token} {a : α}
    (h : Gives around source rule before a after) :
    ∃ passed, before = passed ++ after ∧ ∀ token ∈ passed, token.isEnd = false :=
  (Conservative.ok h).passed

section

variable {passed rest : List Token}

theorem Gives.passed_ne_nil {rule : Parse α} [Advances rule] {a : α}
    (h : Gives around source rule (passed ++ rest) a rest) : passed ≠ [] := by
  rintro rfl
  exact Nat.lt_irrefl _ (Advances.ahead_lt _ _ _ h)

/-- The tokens that two rules pass one after the other. -/
theorem Gives.split {rule : Parse α} {next : α → Parse β} [Conservative rule]
    [∀ a, Conservative (next a)] {b : β}
    (h : Gives around source (rule >>= next) (passed ++ rest) b rest) :
    ∃ a first second, passed = first ++ second ∧
      Gives around source rule (first ++ (second ++ rest)) a (second ++ rest) ∧
      Gives around source (next a) (second ++ rest) b rest := by
  obtain ⟨a, mid, first, second⟩ := h.bind
  obtain ⟨tokens, eq, -⟩ := first.passed
  obtain ⟨others, rfl, -⟩ := second.passed
  rw [← List.append_assoc] at eq
  obtain rfl : passed = tokens ++ others := List.append_cancel_right eq
  exact ⟨a, tokens, others, rfl, by rwa [← List.append_assoc], second⟩

end

theorem headOf_append_congr [Std.Refl alike] {rest rest' : List Token} (tokens : List Token)
    (h : alike (headOf rest) (headOf rest')) :
    alike (headOf (tokens ++ rest)) (headOf (tokens ++ rest')) := by
  cases tokens with
  | nil => exact h
  | cons token tokens => exact Std.Refl.refl token

/-! ### Rules that see the next token only -/

/-- What the rule reads without an error it also reads where other tokens follow, if the first of
them is like the one that followed. -/
class Local (alike : Token → Token → Prop) (rule : Parse α) : Prop where
  conservative : Conservative rule := by infer_instance
  gives : ∀ {around : Surroundings} {source : Nat} {passed rest rest' : List Token} {a : α},
    alike (headOf rest) (headOf rest') → Gives around source rule (passed ++ rest) a rest →
      Gives around source rule (passed ++ rest') a rest'

/-- A rule that does not need the whole next token may be given it. -/
theorem Local.whole {rule : Parse α} [Std.Refl alike] (h : Local alike rule) : Local Eq rule where
  conservative := h.conservative
  gives same := h.gives (same ▸ Std.Refl.refl _)

instance local_bind {rule : Parse α} {next : α → Parse β} [Std.Refl alike]
    [first : Local alike rule] [second : ∀ a, Local alike (next a)] :
    Local alike (rule >>= next) := by
  have := first.conservative
  have := fun a => (second a).conservative
  refine { gives := fun same h => ?_ }
  obtain ⟨a, tokens, others, rfl, read, behind⟩ := h.split
  rw [List.append_assoc]
  exact gives_bind.mpr
    ⟨a, _, first.gives (headOf_append_congr others same) read, (second a).gives same behind⟩

/-- When a token is passed behind it, the first of two rules may see all of the next one. -/
instance local_bind_of_advances {rule : Parse α} {next : α → Parse β} [∀ a, Advances (next a)]
    [first : Local Eq rule] [second : ∀ a, Local alike (next a)] : Local alike (rule >>= next) := by
  have := first.conservative
  have := fun a => (second a).conservative
  refine { gives := ?_ }
  intro around source passed rest rest' b same h
  obtain ⟨a, tokens, others, rfl, read, behind⟩ := h.split
  obtain ⟨token, others, rfl⟩ := List.exists_cons_of_ne_nil behind.passed_ne_nil
  have head : headOf (token :: others ++ rest) = headOf (token :: others ++ rest') := rfl
  rw [List.append_assoc]
  exact gives_bind.mpr ⟨a, _, first.gives head read, (second a).gives same behind⟩

instance (condition : Prop) [Decidable condition] (rule other : Parse α) [Local alike rule]
    [Local alike other] : Local alike (if condition then rule else other) := by
  split <;> infer_instance

instance (a : α) : Local alike (pure a) where
  gives _ h := by
    obtain ⟨rfl, eq⟩ := gives_pure.mp h
    obtain rfl := List.self_eq_append_left.mp eq
    exact gives_pure.mpr ⟨rfl, rfl⟩

instance (token : Token) (issue : GrammarIssue) : Local alike (failAt token issue : Parse α) where
  gives _ h := absurd h not_gives_failAt

instance (issue : String → GrammarIssue) : Local alike (failHere issue : Parse α) where
  gives _ h := absurd h not_gives_failHere

/-- A rule that records an error does not read without one. -/
instance (error : SyntaxError) (next : Unit → Parse α) [∀ done, Conservative (next done)] :
    Local alike (record error >>= next) where
  gives _ h := by
    obtain ⟨_, _, recorded, -⟩ := h.bind
    exact absurd recorded not_gives_record

/-- Of the next token a rule may use what like tokens have in common. -/
theorem local_peek_bind {next : Token → Parse α} [Std.Refl alike]
    (respects : ∀ token other, alike token other → next token = next other)
    (each : ∀ token, Local alike (next token)) : Local alike (peek >>= next) := by
  have := fun token => (each token).conservative
  refine { gives := ?_ }
  intro around source passed rest rest' a same h
  rw [gives_peek_bind] at h ⊢
  rw [← respects _ _ (headOf_append_congr passed same)]
  exact (each _).gives same h

instance local_peek_bind_of_eq {next : Token → Parse α} [each : ∀ token, Local Eq (next token)] :
    Local Eq (peek >>= next) :=
  local_peek_bind (fun _ _ => congrArg next) each

instance : Local Eq advance where
  gives := by
    intro around source passed rest rest' token same h
    rcases gives_advance_cases h with ⟨notEnd, eq⟩ | ⟨ends, rfl⟩
    · obtain rfl : passed = [token] := List.append_cancel_right eq
      exact (gives_advance_cons notEnd).mpr ⟨rfl, rfl⟩
    · have head := (gives_advance.mp h).1
      cases passed with
      | nil => exact gives_advance.mpr ⟨same, by rw [List.nil_append, ← same, if_pos ends]⟩
      | cons token passed =>
        obtain ⟨tokens, eq, notEnd⟩ := h.passed
        obtain rfl := List.append_cancel_right eq
        simp [head, notEnd] at ends

section

variable {fits : Token → Bool} (notEnd : ∀ token, fits token = true → token.isEnd = false)

include notEnd

theorem local_expect {issue : String → GrammarIssue} : Local alike (expect fits issue) where
  gives := by
    intro around source passed rest rest' token same h
    obtain ⟨fit, eq⟩ := (gives_expect notEnd).mp h
    obtain rfl : passed = [token] := List.append_cancel_right (eq.trans List.singleton_append.symm)
    exact (gives_expect notEnd).mpr ⟨fit, rfl⟩

theorem local_accept (respects : ∀ token other, alike token other → fits token = fits other) :
    Local alike (accept fits) where
  gives := by
    intro around source passed rest rest' accepted same h
    rcases (gives_accept notEnd).mp h with ⟨rfl, token, fit, eq⟩ | ⟨rfl, misfit, eq⟩
    · obtain rfl : passed = [token] :=
        List.append_cancel_right (eq.trans List.singleton_append.symm)
      exact (gives_accept notEnd).mpr (.inl ⟨rfl, token, fit, rfl⟩)
    · obtain rfl := List.self_eq_append_left.mp eq
      exact (gives_accept notEnd).mpr (.inr ⟨rfl, (respects _ _ same).symm.trans misfit, rfl⟩)

/-- Something that is only read behind a token that fits. -/
theorem gives_accept_some {rule : Parse (Option α)} [Conservative rule]
    {passed rest : List Token} {a : α} :
    Gives around source (do if ← accept fits then rule else pure none) (passed ++ rest) (some a)
        rest ↔
      ∃ token tokens, fits token = true ∧ passed = token :: tokens ∧
        Gives around source rule (tokens ++ rest) (some a) rest := by
  rw [gives_bind]
  constructor
  · rintro ⟨accepted, mid, first, second⟩
    rcases (gives_accept notEnd).mp first with ⟨rfl, token, fit, eq⟩ | ⟨rfl, -, -⟩
    · obtain ⟨tokens, rfl, -⟩ := Gives.passed second
      exact ⟨token, tokens, fit, List.append_cancel_right eq, second⟩
    · cases (gives_pure.mp second).1
  · rintro ⟨token, tokens, fit, rfl, read⟩
    exact ⟨true, _, (gives_accept notEnd).mpr (.inl ⟨rfl, token, fit, rfl⟩), read⟩

end

instance (sign : Char) : Local alike (expectSign sign) :=
  local_expect fun _ => Token.isEnd_of_isPunctuation

instance [Std.Refl alike] : Local alike identifier := by
  have name : Local alike (expect (·.kind == .identifier) .missingIdentifier) := by
    refine local_expect fun token fit => ?_
    rw [beq_iff_eq] at fit
    simp [Token.isEnd, fit]
  unfold identifier
  infer_instance

instance (fits : Token → Bool) (issue : String → GrammarIssue) : Local Eq (expect fits issue) := by
  unfold expect
  infer_instance

instance (fits : Token → Bool) : Local Eq (accept fits) := by
  unfold accept
  infer_instance

instance (sign : Char) : Local Eq (acceptSign sign) := by
  unfold acceptSign
  infer_instance

instance (change : Surroundings → Surroundings) (rule : Parse α) [inner : Local alike rule] :
    Local alike (surroundedBy change rule) := by
  have := inner.conservative
  refine { gives := fun same h => ?_ }
  rw [gives_surroundedBy] at h ⊢
  exact inner.gives same h

section

variable (thing : Parse α) [Local Eq thing]

instance (close : Char) (limit : Nat) : Local Eq (separated thing close limit) := by
  induction limit with
  | zero => unfold separated; infer_instance
  | succ limit ih => unfold separated; infer_instance

instance (limit : Nat) : Local Eq (separatedTight thing limit) := by
  induction limit with
  | zero => unfold separatedTight; infer_instance
  | succ limit ih => unfold separatedTight; infer_instance

end

/-- The number of tokens ahead may be asked for where it is only a limit. -/
theorem local_remaining_bind {rule : Nat → Parse α}
    (enough : ∀ (limit : Nat) (stream : Stream), stream.ahead ≤ limit →
      rule limit stream = rule stream.ahead stream)
    (each : ∀ limit, Local alike (rule limit)) : Local alike (remaining >>= rule) := by
  have := fun limit => (each limit).conservative
  refine { gives := ?_ }
  intro around source passed rest rest' a same h
  have limited (tokens : List Token) (limit : Nat) (le : tokens.length ≤ limit) :
      Gives around source (rule limit) tokens a =
        Gives around source (rule tokens.length) tokens a := by
    funext after
    exact congrArg (· = _) (enough limit (.fresh around source tokens) le)
  rw [gives_remaining_bind] at h ⊢
  rw [← limited _ _ (Nat.le_max_left _ (passed ++ rest').length)] at h
  rw [← limited _ _ (Nat.le_max_right (passed ++ rest).length _)]
  exact (each _).gives same h

/-- Of the state of reading a rule may use what no token changes. -/
theorem local_get_bind {rule : Stream → Parse α}
    (constant : ∀ around source before before',
      rule (.fresh around source before) = rule (.fresh around source before'))
    (each : ∀ stream, Local alike (rule stream)) : Local alike (get >>= rule) := by
  have := fun stream => (each stream).conservative
  refine { gives := ?_ }
  intro around source passed rest rest' a same h
  rw [gives_get_bind] at h ⊢
  rw [constant around source _ (passed ++ rest)]
  exact (each _).gives same h

end Parse

namespace Grammar

/-! ### Levels of nesting -/

/-- Both tokens go on with a statement in front of them in the same way. -/
def SameBranch (token other : Token) : Prop :=
  ∀ keyword ∈ [Keyword.ella, .wa9ila, .fakhr],
    token.isKeyword keyword = other.isKeyword keyword

instance : Std.Refl SameBranch := ⟨fun _ _ _ => rfl⟩

/-- Every rule of a level sees the next token only. -/
structure LocalRules (rules : Rules) : Prop where
  statement : Local SameBranch rules.statement
  conditional : Local SameBranch rules.conditional
  expression : Local Eq rules.expression
  operand : Local Eq rules.operand
  advances : Advances rules.statement

/-- Every rule of the levels that are left sees the next token only. -/
class LocalLevels (levels : Levels) : Prop extends ConservativeLevels levels where
  local_of_mem : ∀ rules ∈ levels, LocalRules rules

theorem LocalLevels.tail {rules : Rules} {levels : Levels} (h : LocalLevels (rules :: levels)) :
    LocalLevels levels where
  toConservativeLevels := h.toConservativeLevels.tail
  local_of_mem := fun _ mem => h.local_of_mem _ (List.mem_cons_of_mem _ mem)

variable {alike : Token → Token → Prop}

theorem local_deeper {α : Type} {levels : Levels} (rule : Rules → Parse α)
    (h : ∀ rules ∈ levels, Local alike (rule rules)) : Local alike (levels.deeper rule) := by
  unfold Levels.deeper
  cases levels with
  | nil => infer_instance
  | cons rules _ => exact h rules (List.mem_cons_self ..)

section

variable (levels : Levels) [inst : LocalLevels levels]

instance : Local Eq (nestedExpression levels) :=
  local_deeper _ fun rules mem => (LocalLevels.local_of_mem rules mem).expression

instance : Local Eq (levels.deeper (·.expression)) :=
  local_deeper _ fun rules mem => (LocalLevels.local_of_mem rules mem).expression

instance : Local Eq (levels.deeper (·.operand)) :=
  local_deeper _ fun rules mem => (LocalLevels.local_of_mem rules mem).operand

instance : Local SameBranch (levels.deeper (·.conditional)) :=
  local_deeper _ fun rules mem => (LocalLevels.local_of_mem rules mem).conditional

instance : Local SameBranch (nestedStatement levels) :=
  local_deeper _ fun rules mem => (LocalLevels.local_of_mem rules mem).statement

instance : Local Eq (nestedStatement levels) :=
  Local.whole (inferInstance : Local SameBranch (nestedStatement levels))

instance : Advances (nestedStatement levels) := by
  cases levels with
  | nil => exact ⟨nofun⟩
  | cons rules levels => exact (inst.local_of_mem rules (List.mem_cons_self ..)).advances

end

/-! ### Expressions -/

theorem local_chainFrom (joint : Joint) (operand : Levels → Parse Expr)
    (h : ∀ levels [LocalLevels levels], Local Eq (operand levels)) (levels : Levels)
    [inst : LocalLevels levels] (left : Expr) :
    Local Eq (chainFrom joint operand levels left) := by
  revert inst
  induction levels generalizing left with
  | nil =>
    intro inst
    unfold chainFrom
    refine @local_peek_bind_of_eq _ _ fun token => ?_
    split <;> infer_instance
  | cons rules levels ih =>
    intro inst
    have := inst.tail
    have := h levels
    have := fun left => ih left
    unfold chainFrom
    refine @local_peek_bind_of_eq _ _ fun token => ?_
    split <;> infer_instance

theorem local_chain (joint : Joint) (operand : Levels → Parse Expr)
    (h : ∀ levels [LocalLevels levels], Local Eq (operand levels)) (levels : Levels)
    [LocalLevels levels] : Local Eq (chain joint operand levels) := by
  have := h levels
  have := local_chainFrom joint operand h levels
  unfold chain
  infer_instance

instance (levels : Levels) [LocalLevels levels] (opening : Token) :
    Local Eq (arguments levels opening) := by
  unfold arguments
  refine @local_bind _ _ _ _ _ _ _ fun closed => ?_
  split
  · infer_instance
  · exact local_remaining_bind
      (fun _ _ enough => bind_congr_first (separatedTight_limit (by omega) (by omega)))
      fun _ => inferInstance

instance (levels : Levels) [LocalLevels levels] (owner : Expr) :
    Local Eq (memberOf levels owner) := by
  unfold memberOf
  infer_instance

instance (levels : Levels) [inst : LocalLevels levels] (owner : Expr) :
    Local Eq (membersFrom levels owner) := by
  revert inst
  induction levels generalizing owner with
  | nil => intro inst; unfold membersFrom; infer_instance
  | cons rules levels ih =>
    intro inst
    have := inst.tail
    have := fun owner => ih owner
    unfold membersFrom
    infer_instance

instance (levels : Levels) [inst : LocalLevels levels] (callee : Expr) :
    Local Eq (callsFrom levels callee) := by
  revert inst
  induction levels generalizing callee with
  | nil => intro inst; unfold callsFrom; infer_instance
  | cons rules levels ih =>
    intro inst
    have := inst.tail
    have := fun callee => ih callee
    unfold callsFrom
    infer_instance

section

variable (levels : Levels) [LocalLevels levels]

instance (stops : Token → Bool) (limit : Nat) : Local Eq (items levels stops limit) := by
  induction limit with
  | zero => unfold items; infer_instance
  | succ limit ih =>
    refine { gives := fun same h => ?_ }
    rw [gives_items_succ] at h ⊢
    exact Local.gives same h

/-- What is read up to a sign that closes it does not see what follows. -/
instance [Std.Refl alike] : Local alike (block levels) := by
  unfold block
  refine @local_bind _ _ _ _ _ _ _ fun opening => ?_
  exact local_remaining_bind
    (fun _ _ enough => bind_congr_first (items_limit _ enough (Nat.le_refl _)))
    fun _ => inferInstance

instance [Std.Refl alike] (opening : Token) (name : Option Identifier) :
    Local alike (functionFrom levels opening name) := by
  have (params : List Identifier) (body : List Stmt) : Local alike (do
      let source := (← get).source
      pure (Function.mk name params body ⟨source, opening.position⟩) : Parse Function) :=
    local_get_bind (fun _ _ _ _ => rfl) fun _ => inferInstance
  unfold functionFrom
  refine @local_bind _ _ _ _ _ _ _ fun parenthesis => ?_
  refine local_remaining_bind (fun limit stream enough => ?_) fun limit => ?_
  · exact bind_congr_first (separated_limit ')' (by omega) (by omega))
  · dsimp only
    infer_instance

instance : Local Eq (entry levels) := by
  unfold entry
  refine @local_bind _ _ _ _ _ _ _ fun token => ?_
  dsimp only
  repeat' split
  all_goals infer_instance

instance : Local Eq (atom levels) := by
  have elements : Local Eq (remaining >>= fun limit => do
      let elements ← separated (nestedExpression levels) ']' (limit + 1)
      let _ ← expectSign ']'
      pure (Expr.array elements) : Parse Expr) :=
    local_remaining_bind
      (fun _ _ enough => bind_congr_first (separated_limit ']' (by omega) (by omega)))
      fun _ => inferInstance
  have entries : Local Eq (remaining >>= fun limit => do
      let entries ← separated (entry levels) '\x7d' (limit + 1)
      let _ ← expectSign '\x7d'
      pure (Expr.object entries) : Parse Expr) :=
    local_remaining_bind
      (fun _ _ enough => bind_congr_first (separated_limit '\x7d' (by omega) (by omega)))
      fun _ => inferInstance
  unfold atom
  refine @local_bind _ _ _ _ _ _ _ fun token => ?_
  repeat' split
  all_goals infer_instance

instance : Local Eq constructors where
  gives := by
    intro around source passed rest rest' keywords same h
    obtain ⟨eq, words, other⟩ := gives_constructors.mp h
    obtain rfl : passed = keywords := List.append_cancel_right eq
    exact gives_constructors.mpr ⟨rfl, words, by rwa [← same]⟩

instance (keyword : Token) (callee : Expr) : Local Eq (constructFrom levels keyword callee) := by
  unfold constructFrom
  infer_instance

instance (keywords : List Token) (first : Expr) :
    Local Eq (keywords.foldrM (constructFrom levels) first) := by
  induction keywords with
  | nil => rw [List.foldrM_nil]; infer_instance
  | cons keyword keywords ih => rw [List.foldrM_cons]; infer_instance

instance : Local Eq (primary levels) := by
  unfold primary
  infer_instance

instance : Local Eq (updated levels) := by
  unfold updated
  refine @local_bind _ _ _ _ _ _ _ fun first => ?_
  refine @local_bind _ _ _ _ _ _ _ fun target => ?_
  refine @local_peek_bind_of_eq _ _ fun token => ?_
  split <;> infer_instance

instance : Local Eq (operand levels) := by
  unfold operand
  refine @local_peek_bind_of_eq _ _ fun token => ?_
  repeat' split
  all_goals infer_instance

instance : Local Eq (disjunction levels) := by
  unfold disjunction conjunction equality comparison sum product
  iterate 5 refine local_chain _ _ (fun _ _ => ?_) _
  exact local_chain _ _ (fun _ _ => inferInstance) _

instance : Local Eq (assignment levels) := by
  unfold assignment
  refine @local_bind _ _ _ _ _ _ _ fun target => ?_
  refine @local_peek_bind_of_eq _ _ fun token => ?_
  split <;> infer_instance

/-! ### Statements -/

instance [Std.Refl alike] : Local alike (parenthesizedExpression levels) := by
  unfold parenthesizedExpression
  infer_instance

instance : Local Eq (declaration levels) := by
  unfold declaration
  infer_instance

instance [Std.Refl alike] : Local alike (functionDeclaration levels) := by
  unfold functionDeclaration
  infer_instance

instance : Local SameBranch (conditional levels) := by
  unfold conditional
  refine @local_bind_of_advances _ _ _ _ _ _ _ fun keyword => ?_
  refine @local_bind _ _ _ _ _ _ _ fun test => ?_
  refine @local_bind _ _ _ _ _ _ _ fun consequent => ?_
  -- The next token decides whether there is another branch, and like tokens decide alike.
  refine local_peek_bind (fun token other same => ?_) inferInstance
  rw [same .ella (by decide), same .wa9ila (by decide)]

instance : Local SameBranch (loopBody levels) := by
  unfold loopBody
  infer_instance

instance : Local SameBranch (whileLoop levels) := by
  unfold whileLoop
  infer_instance

instance : Local Eq (doWhileLoop levels) := by
  have : Local Eq (loopBody levels) := Local.whole (inferInstance : Local SameBranch _)
  unfold doWhileLoop
  infer_instance

instance : Local Eq (loopStart levels) := by
  unfold loopStart
  infer_instance

instance (sign : Char) : Local Eq (expressionUnless levels sign) := by
  unfold expressionUnless
  infer_instance

instance : Local SameBranch (forLoop levels) := by
  unfold forLoop
  refine @local_bind_of_advances _ _ _ _ _ _ _ fun keyword => ?_
  refine @local_bind _ _ _ _ _ _ _ fun opening => ?_
  refine @local_bind_of_advances _ _ _ _ _ _ _ fun start => ?_
  infer_instance

instance (test : Option Expr) : Local Eq (clauseFrom levels test) := by
  have (stops : Token → Bool) : Local Eq (remaining >>= items levels stops) :=
    local_remaining_bind (fun _ _ enough => items_limit _ enough (Nat.le_refl _)) inferInstance
  unfold clauseFrom
  infer_instance

instance (hasDefault : Bool) (limit : Nat) : Local Eq (clauses levels hasDefault limit) := by
  induction limit generalizing hasDefault with
  | zero => unfold clauses; infer_instance
  | succ limit ih =>
    unfold clauses
    dsimp only
    infer_instance

instance [Std.Refl alike] : Local alike (choice levels) := by
  unfold choice
  refine @local_bind_of_advances _ _ _ _ _ _ _ fun keyword => ?_
  refine @local_bind _ _ _ _ _ _ _ fun subject => ?_
  refine @local_bind _ _ _ _ _ _ _ fun opening => ?_
  exact local_remaining_bind
    (fun _ _ enough => bind_congr_first (clauses_limit enough (Nat.le_refl _)))
    fun _ => inferInstance

instance : Local Eq (giveBack levels) := by
  unfold giveBack
  refine @local_bind _ _ _ _ _ _ _ fun keyword => ?_
  exact local_get_bind (fun _ _ _ _ => rfl) fun _ => inferInstance

instance : Local Eq leave := by
  unfold leave
  refine @local_bind _ _ _ _ _ _ _ fun keyword => ?_
  exact local_get_bind (fun _ _ _ _ => rfl) fun _ => inferInstance

instance : Local Eq next := by
  unfold next
  refine @local_bind _ _ _ _ _ _ _ fun keyword => ?_
  exact local_get_bind (fun _ _ _ _ => rfl) fun _ => inferInstance

instance [Std.Refl alike] (rule : Parse Stmt) [Local Eq rule] : Local alike (terminated rule) := by
  unfold terminated
  infer_instance

instance : Local Eq (evaluation levels) := by
  unfold evaluation
  infer_instance

instance : Local Eq (handler levels) := by
  unfold handler
  infer_instance

instance : Local SameBranch (finalizer levels) := by
  have : Local SameBranch (accept (·.isKeyword .fakhr)) :=
    local_accept (fun _ => Token.isEnd_of_isKeyword) fun _ _ same => same .fakhr (by decide)
  unfold finalizer
  infer_instance

section

variable {around : Surroundings} {source : Nat} {passed rest rest' : List Token}

/-- A handler that was read is closed by a brace, so it does not depend on what follows. -/
theorem handler_closed {caught : Identifier × List Stmt}
    (same : SameBranch (headOf rest) (headOf rest'))
    (h : Gives around source (handler levels) (passed ++ rest) (some caught) rest) :
    Gives around source (handler levels) (passed ++ rest') (some caught) rest' := by
  have notEnd (token : Token) : token.isKeyword .msk = true → token.isEnd = false :=
    Token.isEnd_of_isKeyword
  obtain ⟨token, tokens, word, rfl, read⟩ := (gives_accept_some notEnd).mp h
  exact (gives_accept_some notEnd).mpr ⟨token, tokens, word, rfl, Local.gives same read⟩

/-- Statements that run in every case are told by their keyword. -/
theorem passed_ne_nil_of_finalizer {last : List Stmt}
    (h : Gives around source (finalizer levels) (passed ++ rest) (some last) rest) :
    passed ≠ [] := by
  have notEnd (token : Token) : token.isKeyword .fakhr = true → token.isEnd = false :=
    Token.isEnd_of_isKeyword
  obtain ⟨token, tokens, -, rfl, -⟩ := (gives_accept_some notEnd).mp h
  exact List.cons_ne_nil token tokens

end

instance : Local SameBranch (attempt levels) := by
  unfold attempt
  refine @local_bind_of_advances _ _ _ _ _ _ _ fun keyword => ?_
  refine @local_bind _ _ _ _ _ _ _ fun body => ?_
  refine { gives := ?_ }
  intro around source passed rest rest' stmt same h
  obtain ⟨caught, first, second, rfl, read, behind⟩ := h.split
  rw [List.append_assoc]
  refine gives_bind.mpr ⟨caught, _, ?_, Local.gives same behind⟩
  -- Where no handler was seen, what was seen instead is the word of the statements behind it.
  cases caught with
  | some caught => exact handler_closed levels (headOf_append_congr second same) read
  | none =>
    obtain ⟨last, third, fourth, rfl, final, ending⟩ := behind.split
    cases last with
    | none => exact absurd ending not_gives_failHere
    | some last =>
      have some := passed_ne_nil_of_finalizer levels final
      obtain ⟨token, third, rfl⟩ := List.exists_cons_of_ne_nil some
      have head : headOf (token :: third ++ fourth ++ rest) =
          headOf (token :: third ++ fourth ++ rest') := rfl
      exact Local.gives head read

instance : Local SameBranch (statement levels) where
  gives := by
    intro around source passed rest rest' stmt same h
    -- The token that decides between the rules is passed.
    obtain ⟨token, passed, rfl⟩ := List.exists_cons_of_ne_nil h.passed_ne_nil
    unfold statement at h ⊢
    rw [List.cons_append, gives_peek_bind, headOf_cons] at h ⊢
    by_cases semicolon : token.isPunctuation ';' = true
    · have noBrace : ¬token.isPunctuation '\x7b' = true := fun brace =>
        absurd (Token.isPunctuation_unique brace semicolon) (by decide)
      rw [if_neg noBrace, if_pos semicolon,
        gives_advance_bind (Token.isEnd_of_isPunctuation semicolon)] at h ⊢
      exact Local.gives same h
    · rw [if_neg semicolon, ← List.cons_append] at h ⊢
      refine @Local.gives _ _ _ ?_ _ _ _ _ _ _ same h
      repeat' split
      all_goals infer_instance

end

instance (n : Nat) : LocalLevels (Grammar.levels n) := by
  induction n with
  | zero => exact { local_of_mem := by simp [Grammar.levels] }
  | succ n ih =>
    refine { local_of_mem := fun rules mem => ?_ }
    rcases List.mem_cons.mp mem with rfl | mem
    · exact ⟨inferInstanceAs (Local SameBranch (statement _)),
        inferInstanceAs (Local SameBranch (conditional _)),
        inferInstanceAs (Local Eq (assignment _)), inferInstanceAs (Local Eq (operand _)),
        inferInstanceAs (Advances (statement _))⟩
    · exact ih.local_of_mem rules mem

end Grammar

end DarijaScript
