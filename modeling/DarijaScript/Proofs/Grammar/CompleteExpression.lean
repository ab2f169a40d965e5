import DarijaScript.Proofs.Grammar.Head

/-!
# Written expressions are read

Every rule for expressions reads what a derivation writes, unless the levels of nesting run out.
What stands behind a phrase must not go on with it. Chains are read link by link while each link
takes a level away, so the lemmas about them speak of everything that is still to be read.
-/

set_option synthInstance.maxSize 1000

namespace DarijaScript

open Parse

/-- Nothing that goes on with an operand. -/
structure EndsOperand (token : Token) : Prop where
  suffix : token.beginsSuffix = false
  step : Grammar.stepOp? token = none

/-- Nothing that goes on with an expression. -/
structure EndsExpression (token : Token) : Prop extends EndsOperand token where
  joints : ∀ joint ∈ Phrase.tiers, joint token = none
  assigns : Grammar.assignOp? token = none

/-- Nothing that goes on with this statement. -/
structure EndsStatement (stmt : Stmt) (token : Token) : Prop where
  handler : token.isKeyword .msk = false
  finalizer : token.isKeyword .fakhr = false
  branch : stmt.endsOpen = true → token.addsBranch = false

/-- What is written is read by the rule when nothing behind it goes on with it. -/
def Complete {α : Type} (source : Nat) (rule : Parse α)
    (writes : Surroundings → List Token → α → Prop) (ends : α → Token → Prop) : Prop :=
  ∀ ⦃around tokens a⦄, writes around tokens a → ∀ after, ends a (headOf after) →
    Reads around source rule (tokens ++ after) a after

namespace Grammar

open Phrase

/-- Every rule of a level of nesting is complete. A condition is read from its keyword on. -/
structure CompleteRules (source : Nat) (rules : Rules) : Prop where
  statement : Complete source rules.statement (Statement source) EndsStatement
  conditional : Complete source rules.conditional
    (fun around tokens stmt => ∃ keyword rest, tokens = keyword :: rest ∧ keyword.isEnd = false ∧
      Conditional source around rest stmt)
    EndsStatement
  expression : Complete source rules.expression (fun _ => Expression source) fun _ => EndsExpression
  operand : Complete source rules.operand (fun _ => Operand source) fun _ => EndsOperand

/-- Every rule of the levels that are left is complete and conservative. -/
class CompleteLevels (source : Nat) (levels : Levels) : Prop
    extends ConservativeLevels levels where
  complete : ∀ rules ∈ levels, CompleteRules source rules

theorem CompleteLevels.tail {source : Nat} {rules : Rules} {levels : Levels}
    (h : CompleteLevels source (rules :: levels)) : CompleteLevels source levels where
  toConservativeLevels := h.toConservativeLevels.tail
  complete := fun _ mem => h.complete _ (List.mem_cons_of_mem _ mem)

variable {source : Nat} {around : Surroundings}

/-! ### What ends a phrase -/

theorem endsOperand_of_isPunctuation {token : Token} {sign : Char}
    (h : token.isPunctuation sign = true) (other : sign ∉ ['(', '.', '[']) :
    EndsOperand token where
  suffix := by
    cases begins : token.beginsSuffix with
    | false => rfl
    | true =>
      simp only [Token.beginsSuffix, Token.beginsMember, Bool.or_eq_true] at begins
      rcases begins with opens | opens | opens <;>
        simp [Token.isPunctuation_unique h opens] at other
  step := Token.stepOp?_of_kind (by simp [Token.kind_of_isPunctuation h])

theorem endsExpression_of_isPunctuation {token : Token} {sign : Char}
    (h : token.isPunctuation sign = true) (other : sign ∉ ['(', '.', '[']) :
    EndsExpression token where
  toEndsOperand := endsOperand_of_isPunctuation h other
  joints := by
    have kind := Token.kind_of_isPunctuation h
    intro joint mem
    simp only [tiers, List.mem_cons, List.not_mem_nil, or_false] at mem
    rcases mem with rfl | rfl | rfl | rfl | rfl | rfl <;>
      simp [logicalJoint, binaryJoint, Token.isOperator, kind]
  assigns := by simp [assignOp?, Token.kind_of_isPunctuation h]

theorem endsStatement_of_isPunctuation {stmt : Stmt} {token : Token} {sign : Char}
    (h : token.isPunctuation sign = true) : EndsStatement stmt token := by
  have noWord (keyword : Keyword) : token.isKeyword keyword = false := by
    simp [Token.isKeyword, Token.keyword?, Token.kind_of_isPunctuation h]
  exact ⟨noWord _, noWord _, fun _ => by simp [Token.addsBranch, noWord]⟩

/-! ### Lists -/

section

variable {α : Type} {thing : Parse α} [Conservative thing] {writes : List Token → α → Prop}
  {close : Char}

theorem reads_separated {tokens after : List Token} {as : List α} (h : Listed writes tokens as)
    (complete : ∀ {tokens a after}, writes tokens a →
      (headOf after).isPunctuation ',' = true ∨ (headOf after).isPunctuation close = true →
        Reads around source thing (tokens ++ after) a after)
    (begins : ∀ {tokens a}, writes tokens a →
      (headOf tokens).isEnd = false ∧ (headOf tokens).isPunctuation close = false)
    (notComma : close ≠ ',') (closes : (headOf after).isPunctuation close = true) {limit : Nat}
    (enough : tokens.length < limit) :
    Reads around source (separated thing close limit) (tokens ++ after) as after := by
  have noComma : (headOf after).isPunctuation ',' = false := by
    by_contra comma
    exact notComma (Token.isPunctuation_unique closes (by simpa using comma))
  induction h generalizing limit with
  | nil =>
    obtain ⟨limit, rfl⟩ := Nat.exists_eq_succ_of_ne_zero (Nat.ne_of_gt enough)
    unfold separated
    rw [reads_peek_bind, if_pos (by simpa using closes)]
    exact .pure
  | last written =>
    obtain ⟨limit, rfl⟩ := Nat.exists_eq_succ_of_ne_zero (Nat.ne_of_gt (Nat.zero_lt_of_lt enough))
    obtain ⟨notEnd, notClose⟩ := begins written
    unfold separated
    rw [reads_peek_bind, headOf_append notEnd, if_neg (by simp [notClose])]
    refine .bind (complete written (.inr closes)) ?_
    refine .step (gives_acceptSign.mpr (.inr ⟨rfl, noComma, rfl⟩)) ?_
    exact .pure
  | @cons tokens others a as comma written sign rest ih =>
    obtain ⟨limit, rfl⟩ := Nat.exists_eq_succ_of_ne_zero (Nat.ne_of_gt (Nat.zero_lt_of_lt enough))
    obtain ⟨notEnd, notClose⟩ := begins written
    have fewer : others.length < limit := by
      simp only [List.length_append, List.length_cons] at enough
      omega
    unfold separated
    rw [List.append_assoc, reads_peek_bind, headOf_append notEnd, if_neg (by simp [notClose])]
    refine .bind (complete written (.inl sign)) ?_
    refine .step (gives_acceptSign.mpr (.inl ⟨rfl, comma, sign, rfl⟩)) ?_
    exact .bind (ih fewer) .pure

theorem reads_separatedTight {tokens after : List Token} {as : List α}
    (h : Enumerated writes tokens as)
    (complete : ∀ {tokens a after}, writes tokens a →
      (headOf after).isPunctuation ',' = true ∨ (headOf after).isPunctuation close = true →
        Reads around source thing (tokens ++ after) a after)
    (notComma : close ≠ ',') (closes : (headOf after).isPunctuation close = true) {limit : Nat}
    (enough : tokens.length < limit) :
    Reads around source (separatedTight thing limit) (tokens ++ after) as after := by
  have noComma : (headOf after).isPunctuation ',' = false := by
    by_contra comma
    exact notComma (Token.isPunctuation_unique closes (by simpa using comma))
  induction h generalizing limit with
  | last written =>
    obtain ⟨limit, rfl⟩ := Nat.exists_eq_succ_of_ne_zero (Nat.ne_of_gt (Nat.zero_lt_of_lt enough))
    unfold separatedTight
    refine .bind (complete written (.inr closes)) ?_
    refine .step (gives_acceptSign.mpr (.inr ⟨rfl, noComma, rfl⟩)) ?_
    exact .pure
  | @cons tokens others a as comma written sign rest ih =>
    obtain ⟨limit, rfl⟩ := Nat.exists_eq_succ_of_ne_zero (Nat.ne_of_gt (Nat.zero_lt_of_lt enough))
    have fewer : others.length < limit := by
      simp only [List.length_append, List.length_cons] at enough
      omega
    unfold separatedTight
    rw [List.append_assoc]
    refine .bind (complete written (.inl sign)) ?_
    refine .step (gives_acceptSign.mpr (.inl ⟨rfl, comma, sign, rfl⟩)) ?_
    exact .bind (ih fewer) .pure

end

/-! ### Chains of operators -/

/-- Nothing that goes on with a chain of these operators. -/
def EndsTier (joints : List Joint) (token : Token) : Prop :=
  EndsOperand token ∧ ∀ joint ∈ joints, joint token = none

/-- The operator is none of the tighter ones. -/
def Joint.Looser (joint : Joint) (joints : List Joint) : Prop :=
  ∀ token join, joint token = some join → token.isEnd = false ∧ EndsTier joints token

section

variable {joint : Joint} {joints : List Joint} {operand : Levels → Parse Expr}
  {writes : List Token → Expr → Prop}

theorem reads_chain_of_rest (looser : joint.Looser joints)
    (conservative : ∀ levels [ConservativeLevels levels], Conservative (operand levels))
    (complete : ∀ levels [CompleteLevels source levels] {tokens expr after},
      Tier writes joints tokens expr → EndsTier joints (headOf after) →
        Reads around source (operand levels) (tokens ++ after) expr after)
    {joints' : List Joint} {tokens : List Token} {expr : Expr} (h : Tier writes joints' tokens expr)
    (eq : joints' = joint :: joints) {rest after : List Token} {final : Expr}
    (ends : EndsTier joints (headOf rest))
    (continues : ∀ levels [CompleteLevels source levels],
      Reads around source (chainFrom joint operand levels expr) rest final after)
    (levels : Levels) [inst : CompleteLevels source levels] :
    Reads around source (chain joint operand levels) (tokens ++ rest) final after := by
  induction h generalizing rest levels with
  | operand operand => cases eq
  | tighter written =>
    obtain ⟨rfl, rfl⟩ := List.cons.inj eq.symm
    have := conservative levels
    have := conservative_chainFrom joint operand conservative levels
    exact .bind (complete levels written ends) (continues levels)
  | @link _ _ tokens others left right expr op chain joins written ih =>
    obtain ⟨rfl, rfl⟩ := List.cons.inj eq.symm
    obtain ⟨join, found, rfl⟩ := Option.map_eq_some_iff.mp joins
    obtain ⟨notEnd, endsOp⟩ := looser op join found
    rw [List.append_assoc]
    have endsOp : EndsTier joints (headOf (op :: others ++ rest)) := endsOp
    refine ih rfl endsOp (fun levels inst => ?_) levels
    cases levels with
    | nil =>
      unfold chainFrom
      rw [reads_peek_bind, List.cons_append, headOf_cons, found]
      exact .advance notEnd reads_failHere_tooDeep
    | cons rules levels =>
      have := inst.tail
      have := conservative levels
      have := conservative_chainFrom joint operand conservative levels
      unfold chainFrom
      rw [reads_peek_bind, List.cons_append, headOf_cons, found]
      exact .advance notEnd (.bind (complete levels written ends) (continues levels))

theorem reads_chain (looser : joint.Looser joints)
    (conservative : ∀ levels [ConservativeLevels levels], Conservative (operand levels))
    (complete : ∀ levels [CompleteLevels source levels] {tokens expr after},
      Tier writes joints tokens expr → EndsTier joints (headOf after) →
        Reads around source (operand levels) (tokens ++ after) expr after)
    (levels : Levels) [CompleteLevels source levels] {tokens after : List Token} {expr : Expr}
    (h : Tier writes (joint :: joints) tokens expr)
    (ends : EndsTier (joint :: joints) (headOf after)) :
    Reads around source (chain joint operand levels) (tokens ++ after) expr after := by
  have stops : joint (headOf after) = none := ends.2 _ (List.mem_cons_self ..)
  have tighter : EndsTier joints (headOf after) :=
    ⟨ends.1, fun _ mem => ends.2 _ (List.mem_cons_of_mem _ mem)⟩
  refine reads_chain_of_rest looser conservative complete h rfl tighter (fun levels _ => ?_) levels
  cases levels <;>
    · unfold chainFrom
      rw [reads_peek_bind, stops]
      exact .pure

end

theorem isOperator_iff {token : Token} {text : String} :
    token.isOperator text = true ↔ token.kind = .operator ∧ token.lexeme = text := by
  simp [Token.isOperator]

theorem looser_logicalJoint {op : Connective} {joints : List Joint}
    (apart : ∀ token : Token, token.kind = .operator → token.lexeme = op.text →
      ∀ joint ∈ joints, joint token = none) :
    (logicalJoint op).Looser joints := by
  intro token join joins
  unfold logicalJoint at joins
  split at joins
  · next operator =>
    obtain ⟨kind, text⟩ := isOperator_iff.mp operator
    refine ⟨by simp [Token.isEnd, kind], ⟨?_, ?_⟩, apart token kind text⟩
    · simp [Token.beginsSuffix, Token.beginsMember, Token.isPunctuation, kind]
    · cases op <;> simp [stepOp?, Token.isOperator, kind, text, Connective.text, StepOp.text]
  · cases joins

theorem looser_binaryJoint {ops : List BinaryOp} {joints : List Joint}
    (apart : ∀ op ∈ ops, ∀ token : Token, token.kind = .operator → token.lexeme = op.text →
      ∀ joint ∈ joints, joint token = none) :
    (binaryJoint ops).Looser joints := by
  intro token join joins
  obtain ⟨op, found, -⟩ := Option.map_eq_some_iff.mp joins
  have operator := List.find?_some found
  obtain ⟨kind, text⟩ := isOperator_iff.mp operator
  refine ⟨by simp [Token.isEnd, kind], ⟨?_, ?_⟩, apart op (List.mem_of_find?_eq_some found) token
    kind text⟩
  · simp [Token.beginsSuffix, Token.beginsMember, Token.isPunctuation, kind]
  · cases op <;> simp [stepOp?, Token.isOperator, kind, text, BinaryOp.text, StepOp.text]

theorem reads_disjunction
    (operands : ∀ levels [CompleteLevels source levels] {tokens expr after},
      Operand source tokens expr → EndsOperand (headOf after) →
        Reads around source (operand levels) (tokens ++ after) expr after)
    (levels : Levels) [CompleteLevels source levels] {tokens after : List Token} {expr : Expr}
    (h : Tier (Operand source) tiers tokens expr) (ends : EndsTier tiers (headOf after)) :
    Reads around source (disjunction levels) (tokens ++ after) expr after := by
  have conservative (joint : Joint) (operand : Levels → Parse Expr)
      (h : ∀ levels [ConservativeLevels levels], Conservative (operand levels)) :
      ∀ levels [ConservativeLevels levels], Conservative (chain joint operand levels) :=
    fun levels _ => conservative_chain joint operand h levels
  unfold tiers at h ends
  unfold disjunction conjunction equality comparison sum product
  refine reads_chain (looser_logicalJoint ?_) ?_ (fun levels _ _ _ _ h ends => ?_) levels h ends
  · simp +contextual [logicalJoint, binaryJoint, Token.isOperator, Connective.text, BinaryOp.text]
  · iterate 5 refine conservative _ _ ?_
    exact fun _ _ => inferInstance
  refine reads_chain (looser_logicalJoint ?_) ?_ (fun levels _ _ _ _ h ends => ?_) levels h ends
  · simp +contextual [binaryJoint, Token.isOperator, Connective.text, BinaryOp.text]
  · iterate 4 refine conservative _ _ ?_
    exact fun _ _ => inferInstance
  refine reads_chain (looser_binaryJoint ?_) ?_ (fun levels _ _ _ _ h ends => ?_) levels h ends
  · simp +contextual [binaryJoint, Token.isOperator, BinaryOp.text]
  · iterate 3 refine conservative _ _ ?_
    exact fun _ _ => inferInstance
  refine reads_chain (looser_binaryJoint ?_) ?_ (fun levels _ _ _ _ h ends => ?_) levels h ends
  · simp +contextual [binaryJoint, Token.isOperator, BinaryOp.text]
  · iterate 2 refine conservative _ _ ?_
    exact fun _ _ => inferInstance
  refine reads_chain (looser_binaryJoint ?_) ?_ (fun levels _ _ _ _ h ends => ?_) levels h ends
  · simp +contextual [binaryJoint, Token.isOperator, BinaryOp.text]
  · refine conservative _ _ ?_
    exact fun _ _ => inferInstance
  refine reads_chain (looser_binaryJoint (by simp)) (fun _ _ => inferInstance)
    (fun levels _ _ _ _ h ends => ?_) levels h ends
  obtain ⟨written⟩ := h
  exact operands levels written ends.1

/-! ### Calls and members -/

section

variable (levels : Levels) [inst : CompleteLevels source levels]

theorem complete_nestedExpression :
    Complete source (nestedExpression levels) (fun _ => Expression source) fun _ => EndsExpression :=
  fun _ _ _ written after ends => reads_deeper fun rules mem =>
    (CompleteLevels.complete rules mem).expression written after ends

theorem complete_nestedOperand :
    Complete source (levels.deeper (·.operand)) (fun _ => Operand source) fun _ => EndsOperand :=
  fun _ _ _ written after ends => reads_deeper fun rules mem =>
    (CompleteLevels.complete rules mem).operand written after ends

theorem complete_nestedStatement :
    Complete source (levels.deeper (·.statement)) (Statement source) EndsStatement :=
  fun _ _ _ written after ends => reads_deeper fun rules mem =>
    (CompleteLevels.complete rules mem).statement written after ends

/-- An expression in front of a sign that cannot go on with it. -/
theorem reads_nestedExpression {tokens after : List Token} {expr : Expr} {sign : Char}
    (written : Expression source tokens expr) (next : (headOf after).isPunctuation sign = true)
    (other : sign ∉ ['(', '.', '[']) :
    Reads around source (nestedExpression levels) (tokens ++ after) expr after :=
  complete_nestedExpression levels written after (endsExpression_of_isPunctuation next other)

theorem reads_arguments (opening : Token) {tokens after : List Token} {args : List Expr}
    (h : Arguments source tokens args) :
    Reads around source (arguments levels opening) (tokens ++ after) args after := by
  unfold arguments
  dsimp only
  cases h with
  | none closes =>
    refine .step (gives_acceptSign.mpr (.inl ⟨rfl, _, closes, rfl⟩)) ?_
    rw [if_pos rfl, pure_bind, if_neg (by simp)]
    exact .pure
  | @some closing tokens args inside few closes =>
    have begins : (headOf tokens).beginsExpression = true := by
      cases inside with
      | last written => exact written.begins
      | cons written => rw [headOf_append (Token.isEnd_of_beginsExpression written.begins)]
                        exact written.begins
    have notClosed : (headOf tokens).isPunctuation ')' = false := by
      by_contra closes
      have := Token.beginsExpression_of_isPunctuation (by simpa using closes) begins
      simp at this
    rw [List.append_assoc]
    refine .step (gives_acceptSign.mpr (.inr ⟨rfl, ?_, rfl⟩)) ?_
    · rwa [headOf_append (Token.isEnd_of_beginsExpression begins)]
    rw [if_neg (by simp), reads_remaining_bind]
    refine .bind (reads_separatedTight inside ?_ (by decide) (punctuationAhead closes after) ?_) ?_
    · intro tokens a after written next
      rcases next with next | next <;> exact reads_nestedExpression levels written next (by decide)
    · simp only [List.length_append, List.length_cons]
      omega
    · refine .step (gives_expectSign.mpr ⟨closes, rfl⟩) ?_
      rw [pure_bind, if_neg (Nat.not_lt.mpr few)]
      exact .pure

theorem reads_memberOf {owner expr : Expr} {tokens after : List Token}
    (h : MemberSuffix source owner tokens expr) :
    Reads around source (memberOf levels owner) (tokens ++ after) expr after := by
  unfold memberOf
  cases h with
  | named sign word =>
    have proper : ∀ token : Token, token.isMemberName = true → token.isEnd = false := by
      intro token isName
      unfold Token.isMemberName at isName
      unfold Token.isEnd
      grind
    refine .advance (Token.isEnd_of_isPunctuation sign) ?_
    rw [if_pos sign]
    exact .step ((gives_expect proper).mpr ⟨word, rfl⟩) .pure
  | @computed _ key opening closing tokens opens inside closes =>
    have noPoint : ¬opening.isPunctuation '.' = true := by
      intro point
      exact absurd (Token.isPunctuation_unique opens point) (by decide)
    simp only [List.cons_append, List.append_assoc]
    refine .advance (Token.isEnd_of_isPunctuation opens) ?_
    rw [if_neg noPoint]
    refine .bind (reads_nestedExpression levels inside
      (punctuationAhead closes after) (by decide)) ?_
    exact .step (gives_expectSign.mpr ⟨closes, rfl⟩) .pure

end

/-- Behind this expression the rule goes on to a final one, however many levels are left. -/
def GoesOn (around : Surroundings) (source : Nat) (further : Levels → Expr → Parse Expr)
    (expr : Expr) (rest : List Token) (final : Expr) (after : List Token) : Prop :=
  ∀ levels [CompleteLevels source levels],
    Reads around source (further levels expr) rest final after

/-- A rule that goes on behind the head of a chain reads all the suffixes of the chain, if it reads
one suffix and goes on behind it. An open head has none. -/
theorem goesOn_suffixes {Head : Bool → List Token → Expr → Prop}
    {Suffix : Expr → List Token → Expr → Prop} (further : Levels → Expr → Parse Expr)
    (step : ∀ {owner others expr rest final after}, Suffix owner others expr →
      GoesOn around source further expr rest final after →
        GoesOn around source further owner (others ++ rest) final after)
    {isOpen : Bool} {tokens : List Token} {expr : Expr} (h : Suffixed Head Suffix isOpen tokens expr) :
    ∃ first more owner, tokens = first ++ more ∧ Head isOpen first owner ∧
      (isOpen = true → more = []) ∧ ∀ {rest final after},
        GoesOn around source further expr rest final after →
          GoesOn around source further owner (more ++ rest) final after := by
  induction h with
  | @head _ tokens expr head => exact ⟨tokens, [], expr, by simp, head, fun _ => rfl, id⟩
  | @suffix tokens others _ _ chain suffix ih =>
    obtain ⟨first, more, owner, rfl, head, -, reads⟩ := ih
    refine ⟨first, more ++ others, owner, by simp, head, by simp, fun continues => ?_⟩
    rw [List.append_assoc]
    exact reads (step suffix continues)

theorem goesOn_member {owner expr final : Expr} {others rest after : List Token}
    (suffix : MemberSuffix source owner others expr)
    (continues : GoesOn around source membersFrom expr rest final after) :
    GoesOn around source membersFrom owner (others ++ rest) final after := by
  intro levels inst
  have begins := suffix.begins
  have head := headOf_append (Token.isEnd_of_beginsMember begins) rest
  cases levels with
  | nil =>
    unfold membersFrom
    rw [reads_peek_bind, head]
    exact (if_pos begins).symm ▸ reads_failHere_tooDeep
  | cons rules levels =>
    have := inst.tail
    unfold membersFrom
    rw [reads_peek_bind, head]
    exact (if_pos begins).symm ▸ .bind (reads_memberOf levels suffix) (continues levels)

theorem reads_membersFrom_stop {owner : Expr} {rest : List Token}
    (stops : (headOf rest).beginsMember = false) (levels : Levels) :
    Reads around source (membersFrom levels owner) rest owner rest := by
  have stops : ¬(headOf rest).beginsMember = true := by simp [stops]
  cases levels <;>
    · unfold membersFrom
      rw [reads_peek_bind]
      exact (if_neg stops).symm ▸ .pure

theorem goesOn_call {callee expr final : Expr} {others rest after : List Token}
    (suffix : CallSuffix source callee others expr)
    (continues : GoesOn around source callsFrom expr rest final after) :
    GoesOn around source callsFrom callee (others ++ rest) final after := by
  intro levels inst
  cases suffix with
  | member suffix =>
    have begins := suffix.begins
    have head := headOf_append (Token.isEnd_of_beginsMember begins) rest
    have noCall : ¬(headOf others).isPunctuation '(' = true := by
      intro opens
      simp [Token.beginsMember_of_call opens] at begins
    cases levels with
    | nil =>
      unfold callsFrom
      rw [reads_peek_bind, head, if_pos (by simpa [noCall, Token.beginsMember] using begins)]
      exact reads_failHere_tooDeep
    | cons rules levels =>
      have := inst.tail
      unfold callsFrom
      rw [reads_peek_bind, head, if_neg noCall]
      exact (if_pos begins).symm ▸ .bind (reads_memberOf levels suffix) (continues levels)
  | call opens passed =>
    cases levels with
    | nil =>
      unfold callsFrom
      rw [reads_peek_bind, List.cons_append, headOf_cons, if_pos (by simp [opens])]
      exact reads_failHere_tooDeep
    | cons rules levels =>
      have := inst.tail
      unfold callsFrom
      rw [reads_peek_bind, List.cons_append, headOf_cons, if_pos opens]
      refine .advance (Token.isEnd_of_isPunctuation opens) ?_
      exact .bind (reads_arguments levels _ passed) (continues levels)

theorem reads_callsFrom_stop {callee : Expr} {rest : List Token}
    (stops : (headOf rest).beginsSuffix = false) (levels : Levels) :
    Reads around source (callsFrom levels callee) rest callee rest := by
  simp only [Token.beginsSuffix, Token.beginsMember, Bool.or_eq_false_iff] at stops
  obtain ⟨noCall, noPoint, noBracket⟩ := stops
  cases levels <;>
    · unfold callsFrom
      simp only [reads_peek_bind, noCall, noPoint, noBracket, Bool.or_self, Bool.false_eq_true,
        if_false]
      exact .pure

/-- A primary expression is read by the constructing keywords in front of it, the atom behind them
and one step for each keyword. -/
theorem reads_constructions (around : Surroundings) (size : Nat) {isOpen : Bool} {tokens : List Token} {expr : Expr}
    (small : tokens.length ≤ size) (h : Primary source isOpen tokens expr) :
    ∃ keywords first more inner, tokens = keywords ++ first ++ more ∧
      (∀ keyword ∈ keywords, keyword.isKeyword .jdid = true) ∧ Atom source first inner ∧
        ∀ after, (isOpen = true → (headOf after).beginsSuffix = false) →
          ∀ levels [CompleteLevels source levels],
            Reads around source (keywords.foldrM (constructFrom levels) inner) (more ++ after) expr
              after := by
  induction size generalizing isOpen tokens expr with
  | zero =>
    have := Token.isEnd_of_beginsPrimary h.begins
    obtain rfl : tokens = [] := List.length_eq_zero_iff.mp (by omega)
    exact absurd this (by decide)
  | succ size ih =>
    cases h with
    | atom atom => exact ⟨[], tokens, [], expr, by simp, by simp, atom, fun _ _ _ _ => .pure⟩
    | @construct keyword opening tokens others callee args word chain opens passed =>
      obtain ⟨first, members, owner, rfl, head, -, reads⟩ :=
        goesOn_suffixes membersFrom goesOn_member chain
      have smaller : first.length ≤ size := by
        simp at small
        omega
      obtain ⟨keywords, atom, more, inner, rfl, words, written, inside⟩ := ih smaller head
      refine ⟨keyword :: keywords, atom, more ++ members ++ opening :: others, inner, by simp,
        by simpa [word] using words, written, fun after _ levels _ => ?_⟩
      rw [List.foldrM_cons, List.append_assoc, List.append_assoc]
      refine .bind (inside _ (by simp) levels) ?_
      unfold constructFrom
      have stops : (headOf (opening :: others ++ after)).beginsMember = false :=
        Token.beginsMember_of_call opens
      refine .bind (reads (fun levels _ => reads_membersFrom_stop stops levels) levels) ?_
      rw [reads_peek_bind, List.cons_append, headOf_cons, if_pos opens]
      refine .advance (Token.isEnd_of_isPunctuation opens) ?_
      exact .bind (reads_arguments levels opening passed) .pure
    | @bare isOpen keyword tokens callee word chain =>
      obtain ⟨first, members, owner, rfl, head, none, reads⟩ :=
        goesOn_suffixes membersFrom goesOn_member chain
      have smaller : first.length ≤ size := by
        simp at small
        omega
      obtain ⟨keywords, atom, more, inner, rfl, words, written, inside⟩ := ih smaller head
      refine ⟨keyword :: keywords, atom, more ++ members, inner, by simp,
        by simpa [word] using words, written, fun after settled levels _ => ?_⟩
      have settled := settled rfl
      simp only [Token.beginsSuffix, Bool.or_eq_false_iff] at settled
      rw [List.foldrM_cons, List.append_assoc]
      refine .bind (inside _ (fun isOpen => ?_) levels) ?_
      · simp [none isOpen, Token.beginsSuffix, settled]
      unfold constructFrom
      refine .bind (reads (fun levels _ => reads_membersFrom_stop settled.2 levels) levels) ?_
      rw [reads_peek_bind, if_neg (by simp [settled])]
      exact .pure

/-! ### Functions, fields and atoms -/

section

variable (levels : Levels) [inst : CompleteLevels source levels]

theorem endsStatement_of_beginsStatement {stmt : Stmt} {token : Token}
    (h : token.beginsStatement = true) : EndsStatement stmt token := by
  have noWord (keyword : Keyword) (other : keyword.beginsStatement = false)
      (other' : keyword ∉ [.jdid, .farkha, .mchmcha, .hadi, .dala, .no3]) :
      token.isKeyword keyword = false := by
    by_contra word
    rcases Token.beginsStatement_of_isKeyword (by simpa using word) h with begins | begins
    · simp [other] at begins
    · exact other' begins
  exact ⟨noWord _ rfl (by decide), noWord _ rfl (by decide), fun _ => by
    simp [Token.addsBranch, noWord .ella rfl (by decide), noWord .wa9ila rfl (by decide)]⟩

theorem reads_items {stops : Token → Bool}
    (apart : ∀ token, token.beginsStatement = true → stops token = false) {tokens : List Token}
    {stmts : List Stmt} (h : Many (Statement source) tokens stmts around) {after : List Token}
    (ends : (headOf after).isEnd = true ∨ stops (headOf after) = true)
    (follows : ∀ stmt, EndsStatement stmt (headOf after)) {limit : Nat}
    (enough : tokens.length ≤ limit) :
    Reads around source (items levels stops limit) (tokens ++ after) stmts after := by
  induction h generalizing limit with
  | nil =>
    cases limit with
    | zero => exact .pure
    | succ limit =>
      unfold items
      rw [List.nil_append, reads_peek_bind, if_pos (by simpa using ends)]
      exact .pure
  | @cons around tokens others stmt stmts first rest ih =>
    have begins := first.begins
    have notEnd := Token.isEnd_of_beginsStatement begins
    obtain ⟨token, tokens, rfl⟩ : ∃ token rest, tokens = token :: rest := by
      obtain ⟨rest, eq⟩ := eq_cons_of_headOf notEnd
      exact ⟨_, rest, eq⟩
    rw [headOf_cons] at begins notEnd
    cases limit with
    | zero => simp at enough
    | succ limit =>
      have fewer : others.length ≤ limit := by
        simp at enough
        omega
      have next : EndsStatement stmt (headOf (others ++ after)) := by
        cases rest with
        | nil => exact follows stmt
        | cons second _ =>
          have begins := second.begins
          rw [List.append_assoc, headOf_append (Token.isEnd_of_beginsStatement begins)]
          exact endsStatement_of_beginsStatement begins
      unfold items
      rw [List.append_assoc, reads_peek_bind, List.cons_append, headOf_cons,
        if_neg (by simp [notEnd, apart token begins]), reads_remaining_bind]
      refine .outcome (fun _ => by split <;> infer_instance) (complete_nestedStatement levels first _ next) ?_ fun _ => rfl
      exact .bind (ih fewer) .pure

theorem reads_block {tokens after : List Token} {body : List Stmt}
    (h : Block source around tokens body) :
    Reads around source (block levels) (tokens ++ after) body after := by
  cases h with
  | @mk _ opening closing tokens _ opens inside closes =>
    unfold block
    simp only [List.cons_append, List.append_assoc]
    refine .step (gives_expectSign.mpr ⟨opens, rfl⟩) ?_
    rw [reads_remaining_bind]
    have apart (token : Token) (begins : token.beginsStatement = true) :
        token.isPunctuation '\x7d' = false := by
      by_contra closes
      have := Token.beginsStatement_of_isPunctuation (by simpa using closes) begins
      simp at this
    refine .bind (reads_items levels apart inside (.inr (punctuationAhead closes after))
      (fun _ => endsStatement_of_isPunctuation closes) (by simp)) ?_
    exact .step (gives_expectSign.mpr ⟨closes, rfl⟩) .pure

theorem reads_identifiers {names after : List Token} {params : List Identifier} {limit : Nat}
    (h : Listed Name names params) (closes : (headOf after).isPunctuation ')' = true)
    (enough : names.length < limit) :
    Reads around source (separated identifier ')' limit) (names ++ after) params after := by
  refine reads_separated h ?_ ?_ (by decide) closes enough
  · rintro _ _ after ⟨kind⟩ -
    exact .of_gives (gives_identifier.mpr ⟨_, kind, rfl, rfl⟩)
  · rintro _ _ ⟨kind⟩
    simp [Token.isEnd, Token.isPunctuation, kind]

theorem reads_functionFrom {keyword : Token} {name : Option Identifier} {tokens after : List Token}
    {f : Function} (h : FunctionRest source keyword name tokens f) :
    Reads around source (functionFrom levels keyword name) (tokens ++ after) f after := by
  cases h with
  | @mk _ opening closing _ names tokens params body opens listed closes few block =>
    unfold functionFrom
    dsimp only
    simp only [List.cons_append, List.append_assoc]
    refine .step (gives_expectSign.mpr ⟨opens, rfl⟩) ?_
    rw [reads_remaining_bind]
    refine .bind (reads_identifiers listed (punctuationAhead closes (tokens ++ after))
      (by simp only [List.length_append, List.length_cons]; omega)) ?_
    refine .step (gives_expectSign.mpr ⟨closes, rfl⟩) ?_
    rw [if_neg (Nat.not_lt.mpr few)]
    refine .bind (.surroundedBy (reads_block levels block)) ?_
    rw [reads_get_bind]
    exact .pure

theorem reads_entry {tokens after : List Token} {field : String × Expr} {sign : Char}
    (h : Entry source tokens field) (next : (headOf after).isPunctuation sign = true)
    (other : sign ∉ ['(', '.', '[']) :
    Reads around source (entry levels) (tokens ++ after) field after := by
  cases h with
  | @mk token colon tokens key value named sign written =>
    have rest : Reads around source (do
        let _ ← expectSign ':'
        let value ← nestedExpression levels
        pure (key, value)) (colon :: (tokens ++ after)) (key, value) after :=
      .step (gives_expectSign.mpr ⟨sign, rfl⟩)
        (.bind (reads_nestedExpression levels written next other) .pure)
    unfold entry
    dsimp only
    simp only [List.cons_append]
    cases named with
    | word kind =>
      refine .advance (by simp [Token.isEnd, (Key.word kind).kind]) ?_
      simp only [Token.isMemberName, Bool.or_eq_true, beq_iff_eq] at kind
      rcases kind with (kind | kind) | kind <;> simpa only [kind, pure_bind] using rest
    | string kind =>
      refine .advance (by simp [Token.isEnd, kind]) ?_
      simpa only [kind, pure_bind] using rest
    | number kind reads =>
      refine .advance (by simp [Token.isEnd, kind]) ?_
      simpa only [kind, reads, pure_bind] using rest

theorem reads_atom {tokens after : List Token} {expr : Expr} (h : Atom source tokens expr) :
    Reads around source (atom levels) (tokens ++ after) expr after := by
  have beginning := h.begins
  have starts : (headOf tokens).isEnd = false :=
    Token.isEnd_of_beginsPrimary (by simp [Token.beginsPrimary, beginning])
  unfold atom
  cases h with
  | number kind reads =>
    refine .advance starts ?_
    simp only [kind, reads]
    exact .pure
  | string kind =>
    refine .advance starts ?_
    simp only [kind]
    exact .pure
  | boolean kind =>
    refine .advance starts ?_
    simp only [kind]
    exact .pure
  | identifier kind =>
    refine .advance starts ?_
    simp only [kind]
    exact .pure
  | null word =>
    refine .advance starts ?_
    simp only [Token.kind_of_isKeyword word, Token.isKeyword_iff.mp word]
    exact .pure
  | undefined word =>
    refine .advance starts ?_
    simp only [Token.kind_of_isKeyword word, Token.isKeyword_iff.mp word]
    exact .pure
  | this word =>
    refine .advance starts ?_
    simp only [Token.kind_of_isKeyword word, Token.isKeyword_iff.mp word]
    exact .pure
  | @function keyword names tokens name f word named rest =>
    simp only [List.cons_append, List.append_assoc]
    refine .advance starts ?_
    simp only [Token.kind_of_isKeyword word, Token.isKeyword_iff.mp word]
    rw [reads_peek_bind]
    cases named with
    | none =>
      have anonymous : ¬((headOf ([] ++ (tokens ++ after))).kind == .identifier) = true := by
        obtain ⟨opens, _, _, _, _⟩ := rest
        simp [Token.kind_of_isPunctuation opens]
      rw [if_neg anonymous, pure_bind, List.nil_append]
      exact .bind (reads_functionFrom levels rest) .pure
    | some named =>
      obtain ⟨kind⟩ := named
      rw [List.cons_append, List.nil_append, if_pos (by simp [kind])]
      refine .step (gives_identifier.mpr ⟨_, kind, rfl, rfl⟩) ?_
      rw [pure_bind]
      exact .bind (reads_functionFrom levels rest) .pure
  | @group opening closing tokens expr opens inside closes =>
    simp only [List.cons_append, List.append_assoc]
    refine .advance starts ?_
    simp only [Token.kind_of_isPunctuation opens, if_pos opens]
    refine .bind (reads_nestedExpression levels inside
      (punctuationAhead closes after) (by decide)) ?_
    exact .step (gives_expectSign.mpr ⟨closes, rfl⟩) .pure
  | @array opening closing tokens elements opens inside closes =>
    simp only [List.cons_append, List.append_assoc]
    refine .advance starts ?_
    have noGroup : ¬opening.isPunctuation '(' = true := by
      intro sign
      exact absurd (Token.isPunctuation_unique opens sign) (by decide)
    simp only [Token.kind_of_isPunctuation opens, if_neg noGroup, if_pos opens]
    rw [reads_remaining_bind]
    refine .bind (reads_separated inside ?_ ?_ (by decide)
      (punctuationAhead closes after) (by simp only [List.length_append, List.length_cons]; omega)) ?_
    · intro tokens a after written next
      rcases next with next | next <;> exact reads_nestedExpression levels written next (by decide)
    · intro tokens a written
      have begins := written.begins
      refine ⟨Token.isEnd_of_beginsExpression begins, ?_⟩
      by_contra closes
      have := Token.beginsExpression_of_isPunctuation (by simpa using closes) begins
      simp at this
    exact .step (gives_expectSign.mpr ⟨closes, rfl⟩) .pure
  | @object opening closing tokens entries opens inside closes =>
    simp only [List.cons_append, List.append_assoc]
    refine .advance starts ?_
    have noSign (sign : Char) (other : '\x7b' ≠ sign) : ¬opening.isPunctuation sign = true := by
      intro found
      exact other (Token.isPunctuation_unique opens found)
    simp only [Token.kind_of_isPunctuation opens, if_neg (noSign '(' (by decide)),
      if_neg (noSign '[' (by decide)), if_pos opens]
    rw [reads_remaining_bind]
    refine .bind (reads_separated inside ?_ ?_ (by decide)
      (punctuationAhead closes after) (by simp only [List.length_append, List.length_cons]; omega)) ?_
    · intro tokens a after written next
      rcases next with next | next <;> exact reads_entry levels written next (by decide)
    · rintro _ _ ⟨named, _, _⟩
      have kind := named.kind
      simp_all [Token.isEnd, Token.isPunctuation]
    exact .step (gives_expectSign.mpr ⟨closes, rfl⟩) .pure

theorem reads_primary {isOpen : Bool} {tokens : List Token} {expr : Expr}
    (h : Primary source isOpen tokens expr) {after : List Token}
    (settled : isOpen = true → (headOf after).beginsSuffix = false) :
    Reads around source (primary levels) (tokens ++ after) expr after := by
  obtain ⟨keywords, first, more, inner, rfl, words, atom, reads⟩ :=
    reads_constructions around _ (Nat.le_refl _) h
  have begins := atom.begins
  have notEnd : (headOf first).isEnd = false :=
    Token.isEnd_of_beginsPrimary (by simp [Token.beginsPrimary, begins])
  have noKeyword : (headOf first).isKeyword .jdid = false := by
    by_contra word
    simp [Token.beginsAtom, Token.isKeyword, Token.isKeyword_iff.mp (by simpa using word),
      Token.kind_of_isKeyword (by simpa using word), Token.isPunctuation] at begins
  have taken : Gives around source constructors (keywords ++ (first ++ (more ++ after))) keywords
      (first ++ (more ++ after)) :=
    gives_constructors.mpr ⟨rfl, words, by rwa [headOf_append notEnd]⟩
  rw [List.append_assoc, List.append_assoc]
  exact .step taken (.bind (reads_atom levels atom) (reads after settled levels))

theorem reads_updated {tokens after : List Token} {expr : Expr} (h : Updated source tokens expr)
    (ends : EndsOperand (headOf after)) :
    Reads around source (updated levels) (tokens ++ after) expr after := by
  -- The chain is read up to whatever ends an operand.
  have chain {isOpen : Bool} {tokens rest : List Token} {target : Expr}
      (h : Suffixed (Primary source) (CallSuffix source) isOpen tokens target)
      (stops : (headOf rest).beginsSuffix = false)
      {next : Expr → Parse Expr} [∀ target, Conservative (next target)]
      (h' : Reads around source (next target) rest expr after) :
      Reads around source (primary levels >>= fun first => callsFrom levels first >>= next)
        (tokens ++ rest) expr after := by
    obtain ⟨first, more, owner, rfl, primary, none, reads⟩ :=
      goesOn_suffixes callsFrom goesOn_call h
    rw [List.append_assoc]
    refine .bind (reads_primary levels primary fun isOpen => ?_) ?_
    · simpa [none isOpen] using stops
    · exact .bind (reads (fun levels _ => reads_callsFrom_stop stops levels) levels) h'
  unfold updated
  cases h with
  | plain written =>
    refine chain written ends.suffix ?_
    rw [reads_peek_bind, ends.step]
    exact .pure
  | @update _ tokens target sign op written assignable steps =>
    have kind : sign.kind = .operator := by
      by_contra other
      simp [Token.stepOp?_of_kind other] at steps
    rw [List.append_assoc]
    refine chain written ?_ ?_
    · simp [Token.beginsSuffix, Token.beginsMember, Token.isPunctuation, kind]
    · rw [reads_peek_bind, List.cons_append, headOf_cons, steps]
      dsimp only
      rw [if_pos assignable]
      exact .advance (by simp [Token.isEnd, kind]) .pure

theorem reads_operand {tokens after : List Token} {expr : Expr} (h : Operand source tokens expr)
    (ends : EndsOperand (headOf after)) :
    Reads around source (operand levels) (tokens ++ after) expr after := by
  unfold operand
  have begins := h.begins
  have notEnd := Token.isEnd_of_beginsExpression begins
  rw [reads_peek_bind, headOf_append notEnd]
  cases h with
  | update steps written assignable =>
    rw [headOf_cons, steps]
    dsimp only
    refine .advance notEnd (.bind (complete_nestedOperand levels written after ends) ?_)
    rw [if_pos assignable]
    exact .pure
  | unary noStep applies written =>
    rw [headOf_cons, noStep]
    dsimp only
    rw [applies]
    exact .advance notEnd (.bind (complete_nestedOperand levels written after ends) .pure)
  | updated written =>
    obtain ⟨noStep, noUnary⟩ := Token.no_operator_of_beginsPrimary written.begins
    rw [noStep]
    dsimp only
    rw [noUnary]
    exact reads_updated levels written ends

end

theorem endsTier_of_assignOp? {token : Token} {op : AssignmentOp}
    (h : assignOp? token = some op) : token.isEnd = false ∧ EndsTier tiers token := by
  unfold assignOp? at h
  split at h
  · next kind =>
    have text : op.text = token.lexeme := by simpa using List.find?_some h
    refine ⟨by simp [Token.isEnd, kind], ⟨?_, ?_⟩, ?_⟩
    · simp [Token.beginsSuffix, Token.beginsMember, Token.isPunctuation, kind]
    · cases op <;> simp [stepOp?, Token.isOperator, kind, ← text, AssignmentOp.text, StepOp.text]
    · cases op <;> simp [tiers, logicalJoint, binaryJoint, Token.isOperator, kind, ← text,
        AssignmentOp.text, Connective.text, BinaryOp.text]
  · cases h

theorem reads_assignment (levels : Levels) [CompleteLevels source levels]
    {tokens after : List Token} {expr : Expr} (h : Expression source tokens expr)
    (ends : EndsExpression (headOf after)) :
    Reads around source (assignment levels) (tokens ++ after) expr after := by
  have operands (levels : Levels) [CompleteLevels source levels] {tokens : List Token} {expr : Expr}
      {after : List Token} (h : Operand source tokens expr) (ends : EndsOperand (headOf after)) :
      Reads around source (operand levels) (tokens ++ after) expr after :=
    reads_operand levels h ends
  unfold assignment
  cases h with
  | chain written =>
    refine .bind (reads_disjunction operands levels written ⟨ends.toEndsOperand, ends.joints⟩) ?_
    rw [reads_peek_bind, ends.assigns]
    exact .pure
  | @assign tokens others target value sign op written assignable assigns second =>
    obtain ⟨notEnd, endsTier⟩ := endsTier_of_assignOp? assigns
    rw [List.append_assoc]
    refine .bind (reads_disjunction operands levels written endsTier) ?_
    rw [reads_peek_bind, List.cons_append, headOf_cons, assigns]
    dsimp only
    rw [if_pos assignable]
    exact .advance notEnd (.bind (complete_nestedExpression levels second after ends) .pure)

end Grammar

end DarijaScript
