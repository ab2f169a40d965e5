import DarijaScript.Proofs.Grammar.Phrase
import DarijaScript.Proofs.Grammar.Reading

/-!
# The first tokens of phrases

One token ahead decides every choice of the grammar: what a phrase begins with is none of the tokens
that end the phrase in front of it or that another rule would take.
-/

namespace DarijaScript

open Grammar

theorem headOf_append {tokens : List Token} (h : (headOf tokens).isEnd = false)
    (others : List Token) : headOf (tokens ++ others) = headOf tokens := by
  cases tokens with
  | nil => exact absurd h (by decide)
  | cons token tokens => rfl

namespace Token

/-- A primary expression other than the construction of an object may begin with the token. -/
def beginsAtom (token : Token) : Bool :=
  token.kind == .number || token.kind == .string || token.kind == .boolean ||
    token.kind == .identifier || token.isKeyword .farkha || token.isKeyword .mchmcha ||
    token.isKeyword .hadi || token.isKeyword .dala || token.isPunctuation '(' ||
    token.isPunctuation '[' || token.isPunctuation '\x7b'

/-- A primary expression may begin with the token. -/
def beginsPrimary (token : Token) : Bool := token.isKeyword .jdid || token.beginsAtom

/-- An expression may begin with the token. -/
def beginsExpression (token : Token) : Bool :=
  (stepOp? token).isSome || (unaryOp? token).isSome || token.beginsPrimary

/-- A statement may begin with the token. -/
def beginsStatement (token : Token) : Bool :=
  token.isPunctuation ';' || token.keyword?.any Keyword.beginsStatement || token.beginsExpression

/-- The token begins the selection of a member. -/
def beginsMember (token : Token) : Bool := token.isPunctuation '.' || token.isPunctuation '['

/-- The token begins a list of arguments or the selection of a member. -/
def beginsSuffix (token : Token) : Bool := token.isPunctuation '(' || token.beginsMember

/-- The token adds a branch to a condition in front of it. -/
def addsBranch (token : Token) : Bool := token.isKeyword .ella || token.isKeyword .wa9ila

theorem isEnd_of_beginsMember {token : Token} (h : token.beginsMember = true) :
    token.isEnd = false := by
  rcases Bool.or_eq_true .. ▸ h with sign | sign <;> exact isEnd_of_isPunctuation sign

theorem lexeme_of_isKeyword {token : Token} {keyword : Keyword}
    (h : token.isKeyword keyword = true) : token.lexeme = keyword.text := by
  unfold isKeyword keyword? at h
  split at h
  · exact (Keyword.text_of_ofWord? (by simpa using h)).symm
  · simp at h

theorem kind_of_isKeyword {token : Token} {keyword : Keyword}
    (h : token.isKeyword keyword = true) : token.kind = .keyword := by
  unfold isKeyword keyword? at h
  grind

theorem stepOp?_of_kind {token : Token} (h : token.kind ≠ .operator) : stepOp? token = none := by
  simp [stepOp?, isOperator, h]

theorem unaryOp?_of_isKeyword {token : Token} {keyword : Keyword}
    (h : token.isKeyword keyword = true) (other : keyword ≠ .no3) : unaryOp? token = none := by
  have notNo3 : token.isKeyword .no3 = false := by
    rw [isKeyword_iff] at h
    simpa [isKeyword, h] using other
  have text := lexeme_of_isKeyword h
  have notSign (keyword : Keyword) :
      keyword.text ≠ "!" ∧ keyword.text ≠ "-" ∧ keyword.text ≠ "+" := by
    cases keyword <;> decide
  simp [unaryOp?, notNo3, text, notSign]

theorem unaryOp?_of_kind {token : Token} (h : token.kind ≠ .operator) (h' : token.kind ≠ .keyword) :
    unaryOp? token = none := by
  simp [unaryOp?, isKeyword, keyword?, h, h']

theorem kind_of_isPunctuation {token : Token} {sign : Char} (h : token.isPunctuation sign = true) :
    token.kind = .punctuation := by
  unfold isPunctuation at h
  grind

theorem isPunctuation_unique {token : Token} {sign other : Char}
    (h : token.isPunctuation sign = true) (h' : token.isPunctuation other = true) :
    sign = other := by
  unfold isPunctuation at h h'
  grind

theorem isKeyword_unique {token : Token} {keyword other : Keyword}
    (h : token.isKeyword keyword = true) (h' : token.isKeyword other = true) :
    keyword = other := by
  rw [isKeyword_iff] at h h'
  exact Option.some.inj (h.symm.trans h')

theorem beginsMember_of_call {token : Token} (h : token.isPunctuation '(' = true) :
    token.beginsMember = false := by
  cases begins : token.beginsMember with
  | false => rfl
  | true =>
    rcases Bool.or_eq_true .. ▸ begins with sign | sign <;>
      exact absurd (isPunctuation_unique h sign) (by decide)

/-- A token of punctuation begins a primary expression only as an opening bracket. -/
theorem beginsPrimary_of_isPunctuation {token : Token} {sign : Char}
    (h : token.isPunctuation sign = true) :
    token.beginsPrimary = true → sign ∈ ['(', '[', '\x7b'] := by
  have kind := kind_of_isPunctuation h
  intro begins
  simp only [beginsPrimary, beginsAtom, isKeyword, keyword?, kind, Bool.or_eq_true] at begins
  have unique {other : Char} (h' : token.isPunctuation other = true) : sign = other :=
    isPunctuation_unique h h'
  simp only [reduceCtorEq, if_false, beq_iff_eq, false_or] at begins
  rcases begins with (opens | opens) | opens <;> simp [unique opens]

/-- A keyword begins a primary expression only as one of these words. -/
theorem beginsPrimary_of_isKeyword {token : Token} {keyword : Keyword}
    (h : token.isKeyword keyword = true) :
    token.beginsPrimary = true → keyword ∈ [.jdid, .farkha, .mchmcha, .hadi, .dala] := by
  have kind := kind_of_isKeyword h
  intro begins
  have unique {other : Keyword} (h' : token.isKeyword other = true) : keyword = other :=
    isKeyword_unique h h'
  simp only [beginsPrimary, beginsAtom, isPunctuation, kind, Bool.or_eq_true, Bool.and_eq_true,
    beq_iff_eq, reduceCtorEq, false_or, false_and, or_false] at begins
  rcases begins with word | ((word | word) | word) | word <;> simp [unique word]

/-- No operator begins a primary expression. -/
theorem no_operator_of_beginsPrimary {token : Token} (h : token.beginsPrimary = true) :
    stepOp? token = none ∧ unaryOp? token = none := by
  have noOperator : token.kind ≠ .operator := by
    intro kind
    simp [beginsPrimary, beginsAtom, isKeyword, keyword?, isPunctuation, kind] at h
  refine ⟨stepOp?_of_kind noOperator, ?_⟩
  by_cases word : token.kind = .keyword
  · cases found : token.keyword? with
    | none => simp [beginsPrimary, beginsAtom, isKeyword, isPunctuation, word, found] at h
    | some keyword =>
      have isWord := isKeyword_iff.mpr found
      have words := beginsPrimary_of_isKeyword isWord h
      refine unaryOp?_of_isKeyword isWord ?_
      rintro rfl
      simp at words
  · exact unaryOp?_of_kind noOperator word

theorem beginsExpression_of_isPunctuation {token : Token} {sign : Char}
    (h : token.isPunctuation sign = true) :
    token.beginsExpression = true → sign ∈ ['(', '[', '\x7b'] := by
  have kind := kind_of_isPunctuation h
  intro begins
  have noStep : stepOp? token = none := stepOp?_of_kind (by simp [kind])
  have noUnary : unaryOp? token = none := unaryOp?_of_kind (by simp [kind]) (by simp [kind])
  simp only [beginsExpression, noStep, noUnary, Option.isSome_none, Bool.false_or] at begins
  exact beginsPrimary_of_isPunctuation h begins

theorem beginsExpression_of_isKeyword {token : Token} {keyword : Keyword}
    (h : token.isKeyword keyword = true) :
    token.beginsExpression = true → keyword ∈ [.jdid, .farkha, .mchmcha, .hadi, .dala, .no3] := by
  intro begins
  by_cases isNo3 : keyword = .no3
  · simp [isNo3]
  · have noStep : stepOp? token = none := stepOp?_of_kind (by simp [kind_of_isKeyword h])
    have noUnary := unaryOp?_of_isKeyword h isNo3
    simp only [beginsExpression, noStep, noUnary, Option.isSome_none, Bool.false_or] at begins
    have := beginsPrimary_of_isKeyword h begins
    simp_all

theorem beginsStatement_of_isPunctuation {token : Token} {sign : Char}
    (h : token.isPunctuation sign = true) :
    token.beginsStatement = true → sign ∈ [';', '(', '[', '\x7b'] := by
  intro begins
  simp only [beginsStatement, keyword?, kind_of_isPunctuation h, reduceCtorEq, if_false,
    Option.any_none, Bool.or_false, Bool.or_eq_true] at begins
  rcases begins with ends | begins
  · simp [isPunctuation_unique h ends]
  · exact List.mem_cons_of_mem _ (beginsExpression_of_isPunctuation h begins)

theorem beginsStatement_of_isKeyword {token : Token} {keyword : Keyword}
    (h : token.isKeyword keyword = true) : token.beginsStatement = true →
      keyword.beginsStatement = true ∨
        keyword ∈ [.jdid, .farkha, .mchmcha, .hadi, .dala, .no3] := by
  intro begins
  simp only [beginsStatement, isPunctuation, kind_of_isKeyword h, isKeyword_iff.mp h,
    Option.any_some, Bool.or_eq_true] at begins
  rcases begins with (ends | begins) | begins
  · simp at ends
  · exact .inl begins
  · exact .inr (beginsExpression_of_isKeyword h begins)

theorem isEnd_of_beginsStatement {token : Token} (h : token.beginsStatement = true) :
    token.isEnd = false := by
  cases ends : token.isEnd with
  | false => rfl
  | true =>
    have kind : token.kind = .endOfFile := by simpa [isEnd] using ends
    simp [beginsStatement, beginsExpression, beginsPrimary, beginsAtom, isPunctuation, isKeyword,
      keyword?, stepOp?, unaryOp?, isOperator, kind] at h

theorem isEnd_of_beginsExpression {token : Token} (h : token.beginsExpression = true) :
    token.isEnd = false :=
  isEnd_of_beginsStatement (by simp [beginsStatement, h])

theorem isEnd_of_beginsPrimary {token : Token} (h : token.beginsPrimary = true) :
    token.isEnd = false :=
  isEnd_of_beginsExpression (by simp [beginsExpression, h])

end Token

namespace Phrase

variable {source : Nat} {tokens : List Token} {expr : Expr}

theorem Key.kind {token : Token} {key : String} (h : Key token key) :
    token.kind ≠ .endOfFile ∧ token.kind ≠ .punctuation := by
  cases h with
  | word kind =>
    unfold Token.isMemberName at kind
    grind
  | string kind => simp [kind]
  | number kind => simp [kind]

theorem Atom.begins (h : Atom source tokens expr) : (headOf tokens).beginsAtom = true := by
  cases h <;> simp_all [Token.beginsAtom]

theorem Primary.begins {isOpen : Bool} (h : Primary source isOpen tokens expr) :
    (headOf tokens).beginsPrimary = true := by
  cases h with
  | atom atom => simp [Token.beginsPrimary, atom.begins]
  | construct word => simp [Token.beginsPrimary, word]
  | bare word => simp [Token.beginsPrimary, word]

theorem MemberSuffix.begins {owner : Expr} (h : MemberSuffix source owner tokens expr) :
    (headOf tokens).beginsMember = true := by
  cases h <;> simp_all [Token.beginsMember]

/-- A chain begins as its head does. -/
theorem Suffixed.begins {Head : Bool → List Token → Expr → Prop}
    {Suffix : Expr → List Token → Expr → Prop} {starts : Token → Bool}
    (proper : ∀ token, starts token = true → token.isEnd = false)
    (heads : ∀ {isOpen tokens expr}, Head isOpen tokens expr → starts (headOf tokens) = true)
    {isOpen : Bool} (h : Suffixed Head Suffix isOpen tokens expr) :
    starts (headOf tokens) = true := by
  induction h with
  | head head => exact heads head
  | suffix _ _ ih => rwa [headOf_append (proper _ ih)]

theorem Updated.begins (h : Updated source tokens expr) :
    (headOf tokens).beginsPrimary = true := by
  cases h with
  | plain chain => exact chain.begins (fun _ => Token.isEnd_of_beginsPrimary) Primary.begins
  | update chain =>
    have begins := chain.begins (fun _ => Token.isEnd_of_beginsPrimary) Primary.begins
    rwa [headOf_append (Token.isEnd_of_beginsPrimary begins)]

theorem Operand.begins (h : Operand source tokens expr) :
    (headOf tokens).beginsExpression = true := by
  cases h with
  | update steps => simp [Token.beginsExpression, steps]
  | unary _ applies => simp [Token.beginsExpression, applies]
  | updated updated => simp [Token.beginsExpression, updated.begins]

theorem Tier.begins {joints : List Joint} (h : Tier (Operand source) joints tokens expr) :
    (headOf tokens).beginsExpression = true := by
  induction h with
  | operand operand => exact operand.begins
  | tighter _ ih => exact ih
  | link _ _ _ ih _ => rwa [headOf_append (Token.isEnd_of_beginsExpression ih)]

theorem Expression.begins (h : Expression source tokens expr) :
    (headOf tokens).beginsExpression = true := by
  cases h with
  | chain chain => exact chain.begins
  | assign chain =>
    have begins := chain.begins
    rwa [headOf_append (Token.isEnd_of_beginsExpression begins)]

theorem Statement.begins {around : Surroundings} {stmt : Stmt}
    (h : Statement source around tokens stmt) : (headOf tokens).beginsStatement = true := by
  have opens {token : Token} (opens : token.isPunctuation '\x7b' = true) :
      token.beginsStatement = true := by
    simp [Token.beginsStatement, Token.beginsExpression, Token.beginsPrimary, Token.beginsAtom,
      opens]
  have starts {token : Token} {keyword : Keyword} (word : token.isKeyword keyword = true)
      (starts : keyword.beginsStatement = true) : token.beginsStatement = true := by
    simp [Token.beginsStatement, Token.isKeyword_iff.mp word, starts]
  cases h with
  | block block =>
    obtain ⟨sign, _, _⟩ := block
    exact opens sign
  | empty ends => simp [Token.beginsStatement, ends]
  | declare declaration => cases declaration <;> exact starts ‹_› rfl
  | function word => exact starts word rfl
  | conditional word => exact starts word rfl
  | whileLoop word => exact starts word rfl
  | doWhileLoop word => exact starts word rfl
  | forLoop word => exact starts word rfl
  | handled word => exact starts word rfl
  | finalized word => exact starts word rfl
  | handledFinalized word => exact starts word rfl
  | choice word => exact starts word rfl
  | giveBack word => exact starts word rfl
  | leave word => exact starts word rfl
  | next word => exact starts word rfl
  | evaluate written =>
    have begins := written.begins
    rw [headOf_append (Token.isEnd_of_beginsExpression begins)]
    simp [Token.beginsStatement, begins]

end Phrase

end DarijaScript
