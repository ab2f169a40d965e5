import DarijaScript.Proofs.Grammar.CompleteExpression

/-!
# Written statements are read

The rules for statements read what a derivation writes, and then the levels of nesting are closed by
induction: every rule is complete, however many levels are left.
-/

set_option synthInstance.maxSize 1000

namespace DarijaScript.Grammar

open Parse Phrase

variable {source : Nat} {around : Surroundings} (levels : Levels)
  [inst : CompleteLevels source levels]

theorem reads_parenthesizedExpression {tokens after : List Token} {expr : Expr}
    (h : Parenthesized source tokens expr) :
    Reads around source (parenthesizedExpression levels) (tokens ++ after) expr after := by
  cases h with
  | @mk opening closing tokens _ opens inside closes =>
    unfold parenthesizedExpression
    simp only [List.cons_append, List.append_assoc]
    refine .step (gives_expectSign.mpr ⟨opens, rfl⟩) ?_
    refine .bind (reads_nestedExpression levels inside
      (punctuationAhead closes after) (by decide)) ?_
    exact .step (gives_expectSign.mpr ⟨closes, rfl⟩) .pure

theorem reads_expressionUnless {tokens after : List Token} {expr : Option Expr} {sign : Char}
    (h : Optionally (Expression source) tokens expr)
    (next : (headOf after).isPunctuation sign = true)
    (other : sign ∉ ['(', '.', '[', '\x7b']) :
    Reads around source (expressionUnless levels sign) (tokens ++ after) expr after := by
  unfold expressionUnless
  cases h with
  | none =>
    rw [List.nil_append, reads_peek_bind, if_pos next]
    exact .pure
  | some written =>
    have begins := written.begins
    have noSign : ¬(headOf tokens).isPunctuation sign = true := by
      intro found
      have := Token.beginsExpression_of_isPunctuation found begins
      simp_all
    rw [reads_peek_bind, headOf_append (Token.isEnd_of_beginsExpression begins), if_neg noSign]
    exact .bind (reads_nestedExpression levels written next (by simp_all)) .pure

theorem reads_declaration {tokens after : List Token} {stmt : Stmt}
    (h : Declaration source tokens stmt) (next : (headOf after).isPunctuation ';' = true) :
    Reads around source (declaration levels) (tokens ++ after) stmt after := by
  unfold declaration
  dsimp only
  have proper : ∀ token : Token, token.isOperator "=" = true → token.isEnd = false := by
    intro token operator
    simp [Token.isEnd, isOperator_iff.mp operator]
  cases h with
  | constant word kind assigns written =>
    refine .advance (Token.isEnd_of_isKeyword word) ?_
    rw [if_pos word]
    refine .step (gives_identifier.mpr ⟨_, kind, rfl, rfl⟩) ?_
    refine .step ((gives_accept proper).mpr (.inl ⟨rfl, _, assigns, rfl⟩)) ?_
    exact .bind (reads_nestedExpression levels written next (by decide)) .pure
  | «variable» word kind assigns written =>
    refine .advance (Token.isEnd_of_isKeyword word) ?_
    rw [if_neg fun constant => absurd (Token.isKeyword_unique word constant) (by decide)]
    refine .step (gives_identifier.mpr ⟨_, kind, rfl, rfl⟩) ?_
    refine .step ((gives_accept proper).mpr (.inl ⟨rfl, _, assigns, rfl⟩)) ?_
    exact .bind (reads_nestedExpression levels written next (by decide)) .pure
  | uninitialized word kind =>
    refine .advance (Token.isEnd_of_isKeyword word) ?_
    rw [if_neg fun constant => absurd (Token.isKeyword_unique word constant) (by decide)]
    refine .step (gives_identifier.mpr ⟨_, kind, rfl, rfl⟩) ?_
    have noAssignment : (headOf after).isOperator "=" = false := by
      simp [Token.isOperator, Token.kind_of_isPunctuation next]
    refine .step ((gives_accept proper).mpr (.inr ⟨rfl, noAssignment, rfl⟩)) ?_
    rw [if_neg (by simp), if_neg (by simp)]
    exact .pure

omit inst in
theorem endsStatement_of_isKeyword {stmt : Stmt} {token : Token} {keyword : Keyword}
    (word : token.isKeyword keyword = true) (closed : stmt.endsOpen = false)
    (other : keyword ≠ .msk ∧ keyword ≠ .fakhr) : EndsStatement stmt token where
  handler := by
    by_contra handler
    exact other.1 (Token.isKeyword_unique word (by simpa using handler))
  finalizer := by
    by_contra finalizer
    exact other.2 (Token.isKeyword_unique word (by simpa using finalizer))
  branch isOpen := by simp [closed] at isOpen

omit inst in
theorem endsStatement_of_other {stmt : Stmt} {token : Token} {keyword : Keyword}
    (word : token.isKeyword keyword = true)
    (other : keyword ∉ [.msk, .fakhr, .ella, .wa9ila]) : EndsStatement stmt token := by
  have noWord (keyword' : Keyword) (mem : keyword' ∈ [.msk, .fakhr, .ella, .wa9ila]) :
      token.isKeyword keyword' = false := by
    by_contra found
    exact other (Token.isKeyword_unique word (by simpa using found) ▸ mem)
  refine ⟨noWord _ (by decide), noWord _ (by decide), fun _ => ?_⟩
  simp [Token.addsBranch, noWord .ella (by decide), noWord .wa9ila (by decide)]

theorem complete_conditional : Complete source (conditional levels)
    (fun around tokens stmt => ∃ keyword rest, tokens = keyword :: rest ∧ keyword.isEnd = false ∧
      Conditional source around rest stmt)
    EndsStatement := by
  rintro around _ stmt ⟨keyword, tokens, rfl, notEnd, h⟩ after ends
  unfold conditional
  refine .advance notEnd ?_
  cases h with
  | alone tested branch =>
    have stops : (headOf after).isKeyword .ella = false ∧ (headOf after).isKeyword .wa9ila = false := by
      simpa [Token.addsBranch] using ends.branch rfl
    rw [List.append_eq, List.append_assoc]
    refine .bind (reads_parenthesizedExpression levels tested) ?_
    refine .bind (complete_nestedStatement levels branch after
      ⟨ends.handler, ends.finalizer, fun _ => ends.branch rfl⟩) ?_
    rw [reads_peek_bind, if_neg (by simp [stops]), if_neg (by simp [stops])]
    exact .pure
  | @otherwise _ tokens others more last test consequent alternate tested branch closed word other =>
    rw [List.append_eq, List.append_assoc, List.append_assoc]
    refine .bind (reads_parenthesizedExpression levels tested) ?_
    refine .bind (complete_nestedStatement levels branch (last :: more ++ after)
      (endsStatement_of_isKeyword word closed (by decide))) ?_
    rw [reads_peek_bind, List.cons_append, headOf_cons, if_pos word]
    refine .advance (Token.isEnd_of_isKeyword word) ?_
    exact .bind (complete_nestedStatement levels other after
      ⟨ends.handler, ends.finalizer, ends.branch⟩) .pure
  | @further _ tokens others more last test consequent alternate tested branch closed word other =>
    rw [List.append_eq, List.append_assoc, List.append_assoc]
    refine .bind (reads_parenthesizedExpression levels tested) ?_
    refine .bind (complete_nestedStatement levels branch (last :: more ++ after)
      (endsStatement_of_isKeyword word closed (by decide))) ?_
    rw [reads_peek_bind, List.cons_append, headOf_cons,
      if_neg fun ella => absurd (Token.isKeyword_unique word ella) (by decide), if_pos word]
    have nested : Reads around source (levels.deeper (·.conditional)) (last :: (more ++ after))
        alternate after := by
      refine reads_deeper fun rules mem => ?_
      exact (CompleteLevels.complete rules mem).conditional
        ⟨last, more, rfl, Token.isEnd_of_isKeyword word, other⟩ after
        ⟨ends.handler, ends.finalizer, ends.branch⟩
    exact .bind nested .pure

theorem reads_loopBody {tokens after : List Token} {stmt : Stmt}
    (h : Statement source around.inLoop tokens stmt) (ends : EndsStatement stmt (headOf after)) :
    Reads around source (loopBody levels) (tokens ++ after) stmt after :=
  .surroundedBy (complete_nestedStatement levels h after ends)

theorem reads_loopStart {tokens after : List Token} {start : Option Stmt}
    (h : Start source tokens start) (next : (headOf after).isPunctuation ';' = true) :
    Reads around source (loopStart levels) (tokens ++ after) start after := by
  unfold loopStart
  cases h with
  | none =>
    rw [List.nil_append, reads_peek_bind, if_pos next]
    exact .pure
  | declare declaration =>
    have begins : (headOf tokens).isKeyword .bdl = true ∨ (headOf tokens).isKeyword .tabit = true := by
      cases declaration <;> simp_all
    have notEnd : (headOf tokens).isEnd = false := by
      rcases begins with word | word <;> exact Token.isEnd_of_isKeyword word
    have noSign : ¬(headOf tokens).isPunctuation ';' = true := by
      rcases begins with word | word <;> simp [Token.isPunctuation, Token.kind_of_isKeyword word]
    rw [reads_peek_bind, headOf_append notEnd, if_neg noSign, if_pos (by simpa using begins)]
    exact .bind (reads_declaration levels declaration next) .pure
  | evaluate written =>
    have begins := written.begins
    have noSign : ¬(headOf tokens).isPunctuation ';' = true := by
      intro found
      have := Token.beginsExpression_of_isPunctuation found begins
      simp at this
    have noWord (keyword : Keyword)
        (other : keyword ∉ [.jdid, .farkha, .mchmcha, .hadi, .dala, .no3]) :
        (headOf tokens).isKeyword keyword = false := by
      by_contra word
      exact other (Token.beginsExpression_of_isKeyword (by simpa using word) begins)
    rw [reads_peek_bind, headOf_append (Token.isEnd_of_beginsExpression begins), if_neg noSign,
      if_neg (by simp [noWord .bdl (by decide), noWord .tabit (by decide)])]
    exact .bind (reads_nestedExpression levels written next (by decide)) .pure

theorem reads_handler {tokens after : List Token} {body : Identifier × List Stmt}
    (h : Handler source around tokens body) :
    Reads around source (handler levels) (tokens ++ after) (some body) after := by
  cases h with
  | mk word opens kind closes block =>
    unfold handler
    refine .step ((gives_accept fun _ => Token.isEnd_of_isKeyword).mpr (.inl ⟨rfl, _, word, rfl⟩)) ?_
    rw [if_pos rfl]
    refine .step (gives_expectSign.mpr ⟨opens, rfl⟩) ?_
    refine .step (gives_identifier.mpr ⟨_, kind, rfl, rfl⟩) ?_
    refine .step (gives_expectSign.mpr ⟨closes, rfl⟩) ?_
    exact .bind (reads_block levels block) .pure

omit inst in
theorem reads_no_handler {tokens : List Token} (other : (headOf tokens).isKeyword .msk = false) :
    Reads around source (handler levels) tokens none tokens := by
  unfold handler
  refine .step ((gives_accept fun _ => Token.isEnd_of_isKeyword).mpr (.inr ⟨rfl, other, rfl⟩)) ?_
  rw [if_neg (by simp)]
  exact .pure

theorem reads_finalizer {keyword : Token} {tokens after : List Token} {body : List Stmt}
    (word : keyword.isKeyword .fakhr = true) (h : Block source around tokens body) :
    Reads around source (finalizer levels) (keyword :: tokens ++ after) (some body) after := by
  unfold finalizer
  refine .step ((gives_accept fun _ => Token.isEnd_of_isKeyword).mpr (.inl ⟨rfl, _, word, rfl⟩)) ?_
  rw [if_pos rfl]
  exact .bind (reads_block levels h) .pure

omit inst in
theorem reads_no_finalizer {tokens : List Token}
    (other : (headOf tokens).isKeyword .fakhr = false) :
    Reads around source (finalizer levels) tokens none tokens := by
  unfold finalizer
  refine .step ((gives_accept fun _ => Token.isEnd_of_isKeyword).mpr (.inr ⟨rfl, other, rfl⟩)) ?_
  rw [if_neg (by simp)]
  exact .pure

theorem reads_clauseFrom {test : Option Expr} {colon : Token} {tokens after : List Token}
    {body : List Stmt} (sign : colon.isPunctuation ':' = true)
    (inside : Many (Statement source) tokens body around.inChoice)
    (next : (headOf after).isKeyword .hala = true ∨ (headOf after).isKeyword .adi = true ∨
      (headOf after).isPunctuation '\x7d' = true) :
    Reads around source (clauseFrom levels test) (colon :: tokens ++ after) (.mk test body) after := by
  have apart (token : Token) (begins : token.beginsStatement = true) :
      (token.isKeyword .hala || token.isKeyword .adi || token.isPunctuation '\x7d') = false := by
    by_contra stops
    simp only [Bool.not_eq_false, Bool.or_eq_true] at stops
    rcases stops with (word | word) | closes
    · simpa [Keyword.beginsStatement] using Token.beginsStatement_of_isKeyword word begins
    · simpa [Keyword.beginsStatement] using Token.beginsStatement_of_isKeyword word begins
    · simpa using Token.beginsStatement_of_isPunctuation closes begins
  have follows (stmt : Stmt) : EndsStatement stmt (headOf after) := by
    rcases next with word | word | closes
    · exact endsStatement_of_other word (by decide)
    · exact endsStatement_of_other word (by decide)
    · exact endsStatement_of_isPunctuation closes
  unfold clauseFrom
  refine .step (gives_expectSign.mpr ⟨sign, rfl⟩) ?_
  refine .bind (.surroundedBy ?_) .pure
  rw [reads_remaining_bind]
  refine reads_items levels apart inside (.inr ?_) follows (by simp)
  simpa [or_assoc] using next

theorem reads_clauses {hasDefault : Bool} {tokens after : List Token} {cases : List Case}
    (h : Clauses source around hasDefault tokens cases)
    (closes : (headOf after).isPunctuation '\x7d' = true) {limit : Nat}
    (enough : tokens.length ≤ limit) :
    Reads around source (clauses levels hasDefault limit) (tokens ++ after) cases after := by
  -- Behind a clause stands another one or the brace.
  have next {hasDefault : Bool} {more : List Token} {rest : List Case}
      (h : Clauses source around hasDefault more rest) :
      (headOf (more ++ after)).isKeyword .hala = true ∨
        (headOf (more ++ after)).isKeyword .adi = true ∨
          (headOf (more ++ after)).isPunctuation '\x7d' = true := by
    cases h with
    | nil => exact .inr (.inr closes)
    | test word => exact .inl word
    | default word => exact .inr (.inl word)
  induction cases generalizing hasDefault tokens limit with
  | nil =>
    cases h
    have noWord (keyword : Keyword) : ¬(headOf after).isKeyword keyword = true := by
      simp [Token.isKeyword, Token.keyword?, Token.kind_of_isPunctuation closes]
    cases limit with
    | zero => exact .pure
    | succ limit =>
      unfold clauses
      dsimp only
      rw [List.nil_append, reads_peek_bind, if_neg (noWord _), if_neg (noWord _),
        if_pos (by simp [closes])]
      exact .pure
  | cons clause cases ih =>
    obtain ⟨limit, rfl⟩ : ∃ n, limit = n + 1 := by
      cases limit with
      | zero => cases h <;> simp at enough
      | succ limit => exact ⟨limit, rfl⟩
    unfold clauses
    dsimp only
    cases h with
    | @test _ _ keyword colon tokens others more test body _ word tested sign inside clauses =>
      have fewer : more.length ≤ limit := by
        simp at enough
        omega
      simp only [List.cons_append, List.append_assoc]
      rw [reads_peek_bind, headOf_cons, if_pos word]
      refine .advance (Token.isEnd_of_isKeyword word) ?_
      refine .bind (reads_nestedExpression levels tested
        (punctuationAhead sign (others ++ (more ++ after))) (by decide)) ?_
      refine .bind (reads_clauseFrom levels sign inside (next clauses)) ?_
      exact .bind (ih clauses fewer) .pure
    | @default _ keyword colon others more body _ word sign inside clauses =>
      have fewer : more.length ≤ limit := by
        simp at enough
        omega
      simp only [List.cons_append, List.append_assoc]
      rw [reads_peek_bind, headOf_cons,
        if_neg fun hala => absurd (Token.isKeyword_unique word hala) (by decide), if_pos word]
      refine .advance (Token.isEnd_of_isKeyword word) ?_
      rw [if_neg (by simp)]
      refine .bind (reads_clauseFrom levels sign inside (next clauses)) ?_
      exact .bind (ih clauses fewer) .pure

omit inst in
theorem reads_terminated {rule : Parse Stmt} [Conservative rule] {semicolon : Token}
    {before after : List Token} {stmt : Stmt} (ends : semicolon.isPunctuation ';' = true)
    (h : Reads around source rule before stmt (semicolon :: after)) :
    Reads around source (terminated rule) before stmt after :=
  .bind h (.step (gives_expectSign.mpr ⟨ends, rfl⟩) .pure)

/-- The rule for a statement that begins with this keyword. -/
def statementFrom : Keyword → Parse Stmt
  | .tabit | .bdl => terminated (declaration levels)
  | .dala => functionDeclaration levels
  | .ila => conditional levels
  | .madamt => whileLoop levels
  | .douz => forLoop levels
  | .jrb => attempt levels
  | .bdl3la => choice levels
  | .dir => terminated (doWhileLoop levels)
  | .rj3 => terminated (giveBack levels)
  | .wa9f => terminated leave
  | .kamml => terminated next
  | _ => terminated (evaluation levels)

omit inst in
theorem reads_statement_iff {token : Token} {keyword : Keyword}
    (word : token.isKeyword keyword = true) {rest after : List Token} {stmt : Stmt} :
    Reads around source (statement levels) (token :: rest) stmt after ↔
      Reads around source (statementFrom levels keyword) (token :: rest) stmt after := by
  have noSign (sign : Char) : token.isPunctuation sign = false := by
    simp [Token.isPunctuation, Token.kind_of_isKeyword word]
  simp only [statement, reads_peek_bind, headOf_cons, noSign, Token.isKeyword_iff.mp word,
    Bool.false_eq_true, if_false]
  cases keyword <;> rfl

theorem complete_statement : Complete source (statement levels) (Statement source) EndsStatement := by
  intro around tokens stmt h after settled
  cases h with
  | block block =>
    have opens : (headOf (tokens ++ after)).isPunctuation '\x7b' = true := by
      obtain ⟨opens, _, _⟩ := block
      exact opens
    unfold statement
    rw [reads_peek_bind, if_pos opens]
    exact .bind (reads_block levels block) .pure
  | @empty _ semicolon ends =>
    have notBlock : ¬semicolon.isPunctuation '\x7b' = true := by
      intro opens
      exact absurd (Token.isPunctuation_unique ends opens) (by decide)
    unfold statement
    rw [reads_peek_bind, List.cons_append, headOf_cons, if_neg notBlock, if_pos ends]
    exact .advance (Token.isEnd_of_isPunctuation ends) .pure
  | @declare _ tokens stmt semicolon declaration ends =>
    have reads : Reads around source (terminated (DarijaScript.Grammar.declaration levels))
        (tokens ++ semicolon :: after) stmt after :=
      reads_terminated ends (reads_declaration levels declaration (punctuationAhead ends after))
    rw [List.append_assoc]
    cases declaration with
    | constant word kind assigns written =>
      exact (reads_statement_iff levels word).mpr reads
    | «variable» word kind assigns written =>
      exact (reads_statement_iff levels word).mpr reads
    | uninitialized word kind =>
      exact (reads_statement_iff levels word).mpr reads
  | function word kind rest =>
    rw [List.cons_append, reads_statement_iff levels word, statementFrom]
    unfold functionDeclaration
    refine .advance (Token.isEnd_of_isKeyword word) ?_
    refine .step (gives_identifier.mpr ⟨_, kind, rfl, rfl⟩) ?_
    exact .bind (reads_functionFrom levels rest) .pure
  | conditional word rest =>
    rw [List.cons_append, reads_statement_iff levels word, statementFrom]
    exact complete_conditional levels ⟨_, _, rfl, Token.isEnd_of_isKeyword word, rest⟩ after settled
  | whileLoop word tested repeated =>
    simp only [List.cons_append, List.append_assoc]
    rw [reads_statement_iff levels word, statementFrom]
    unfold whileLoop
    refine .advance (Token.isEnd_of_isKeyword word) ?_
    refine .bind (reads_parenthesizedExpression levels tested) ?_
    exact .bind (reads_loopBody levels repeated ⟨settled.handler, settled.finalizer, settled.branch⟩) .pure
  | @doWhileLoop _ keyword last semicolon tokens others test body word repeated again tested ends =>
    simp only [List.cons_append, List.append_assoc]
    rw [reads_statement_iff levels word, statementFrom]
    unfold doWhileLoop
    refine reads_terminated ends (.advance (Token.isEnd_of_isKeyword word) ?_)
    refine .bind (reads_loopBody levels repeated (endsStatement_of_other
      (keywordAhead again (others ++ semicolon :: after)) (by decide))) ?_
    refine .step ((gives_expect fun _ => Token.isEnd_of_isKeyword).mpr ⟨again, rfl⟩) ?_
    exact .bind (reads_parenthesizedExpression levels tested) .pure
  | @forLoop _ keyword opening first second closing starting testing updating tokens start test update
      body word opens begins sign tested sign' updated closes repeated =>
    simp only [List.cons_append, List.append_assoc]
    rw [reads_statement_iff levels word, statementFrom]
    unfold forLoop
    refine .advance (Token.isEnd_of_isKeyword word) ?_
    refine .step (gives_expectSign.mpr ⟨opens, rfl⟩) ?_
    refine .bind (reads_loopStart levels begins (punctuationAhead sign _)) ?_
    refine .step (gives_expectSign.mpr ⟨sign, rfl⟩) ?_
    refine .bind (reads_expressionUnless levels tested (punctuationAhead sign' _) (by decide)) ?_
    refine .step (gives_expectSign.mpr ⟨sign', rfl⟩) ?_
    refine .bind (reads_expressionUnless levels updated (punctuationAhead closes _) (by decide)) ?_
    refine .step (gives_expectSign.mpr ⟨closes, rfl⟩) ?_
    exact .bind (reads_loopBody levels repeated ⟨settled.handler, settled.finalizer, settled.branch⟩) .pure
  | handled word block handles =>
    simp only [List.cons_append, List.append_assoc]
    rw [reads_statement_iff levels word, statementFrom]
    unfold attempt
    refine .advance (Token.isEnd_of_isKeyword word) ?_
    refine .bind (reads_block levels block) ?_
    refine .bind (reads_handler levels handles) ?_
    exact .bind (reads_no_finalizer levels settled.finalizer) .pure
  | @finalized _ keyword last tokens others body final word block word' closing =>
    simp only [List.cons_append, List.append_assoc]
    rw [reads_statement_iff levels word, statementFrom]
    unfold attempt
    refine .advance (Token.isEnd_of_isKeyword word) ?_
    refine .bind (reads_block levels block) ?_
    have noHandler : (headOf (last :: (others ++ after))).isKeyword .msk = false := by
      by_contra handler
      exact absurd (Token.isKeyword_unique word' (by simpa using handler)) (by decide)
    refine .bind (reads_no_handler levels noHandler) ?_
    exact .bind (reads_finalizer levels word' closing) .pure
  | handledFinalized word block handles word' closing =>
    simp only [List.cons_append, List.append_assoc]
    rw [reads_statement_iff levels word, statementFrom]
    unfold attempt
    refine .advance (Token.isEnd_of_isKeyword word) ?_
    refine .bind (reads_block levels block) ?_
    refine .bind (reads_handler levels handles) ?_
    exact .bind (reads_finalizer levels word' closing) .pure
  | @choice _ keyword opening closing tokens others subject cases word chosen opens clauses closes =>
    simp only [List.cons_append, List.append_assoc]
    rw [reads_statement_iff levels word, statementFrom]
    unfold choice
    refine .advance (Token.isEnd_of_isKeyword word) ?_
    refine .bind (reads_parenthesizedExpression levels chosen) ?_
    refine .step (gives_expectSign.mpr ⟨opens, rfl⟩) ?_
    rw [reads_remaining_bind]
    refine .bind (reads_clauses levels clauses (punctuationAhead closes after) (by simp)) ?_
    exact .step (gives_expectSign.mpr ⟨closes, rfl⟩) .pure
  | @giveBack _ keyword semicolon tokens value word placed written ends =>
    simp only [List.cons_append, List.append_assoc]
    rw [reads_statement_iff levels word, statementFrom]
    unfold giveBack
    refine reads_terminated ends (.advance (Token.isEnd_of_isKeyword word) ?_)
    rw [reads_get_bind]
    have reads : Reads around source (do
        let value ← expressionUnless levels ';'
        pure (Stmt.giveBack value)) (tokens ++ semicolon :: after) (.giveBack value)
        (semicolon :: after) :=
      .bind (reads_expressionUnless levels written (punctuationAhead ends after) (by decide)) .pure
    exact (if_pos placed).symm ▸ reads
  | leave word placed ends =>
    rw [List.cons_append, reads_statement_iff levels word, statementFrom]
    unfold leave
    refine reads_terminated ends (.advance (Token.isEnd_of_isKeyword word) ?_)
    have inside : ¬(around.loops = 0 && around.choices = 0) = true := by
      simp
      omega
    rw [reads_get_bind]
    exact (if_neg inside).symm ▸ .pure
  | next word placed ends =>
    rw [List.cons_append, reads_statement_iff levels word, statementFrom]
    unfold next
    refine reads_terminated ends (.advance (Token.isEnd_of_isKeyword word) ?_)
    rw [reads_get_bind]
    exact (if_neg (Nat.ne_of_gt placed)).symm ▸ .pure
  | @evaluate _ tokens expr semicolon written headless ends =>
    have begins := written.begins
    have notEnd := Token.isEnd_of_beginsExpression begins
    obtain ⟨token, tokens, rfl⟩ : ∃ token rest, tokens = token :: rest := by
      obtain ⟨rest, eq⟩ := eq_cons_of_headOf notEnd
      exact ⟨_, rest, eq⟩
    obtain ⟨noBlock, noFunction⟩ := headless token rfl
    have reads : Reads around source (terminated (evaluation levels))
        (token :: (tokens ++ semicolon :: after)) (.evaluate expr) after :=
      reads_terminated ends
        (.bind (reads_nestedExpression levels written
          (punctuationAhead ends after) (by decide)) .pure)
    rw [List.append_assoc]
    cases found : token.keyword? with
    | some keyword =>
      have word := Token.isKeyword_iff.mpr found
      have words := Token.beginsExpression_of_isKeyword word begins
      refine (reads_statement_iff levels word).mpr ?_
      simp only [List.mem_cons, List.not_mem_nil, or_false] at words
      rcases words with rfl | rfl | rfl | rfl | rfl | rfl
      all_goals first
        | exact reads
        | exact absurd word (by simp [noFunction])
    | none =>
      have noSemicolon : ¬token.isPunctuation ';' = true := by
        intro found
        have := Token.beginsExpression_of_isPunctuation found begins
        simp at this
      unfold statement
      rw [reads_peek_bind, List.cons_append, headOf_cons, if_neg (by simp [noBlock]),
        if_neg noSemicolon]
      simpa only [found, List.cons_append, List.nil_append] using reads

theorem completeRules : CompleteRules source (rules levels) where
  statement := complete_statement levels
  conditional := complete_conditional levels
  expression _ _ _ h _ ends := reads_assignment levels h ends
  operand _ _ _ h _ ends := reads_operand levels h ends

omit inst

instance (n : Nat) : CompleteLevels source (Grammar.levels n) := by
  induction n with
  | zero => exact ⟨by simp [Grammar.levels]⟩
  | succ n ih =>
    have conservative : ConservativeLevels (Grammar.levels (n + 1)) := inferInstance
    refine { conservative with complete := fun rules mem => ?_ }
    rcases List.mem_cons.mp mem with rfl | mem
    · exact completeRules _
    · exact ih.complete rules mem

end DarijaScript.Grammar
