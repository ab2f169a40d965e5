import DarijaScript.Proofs.Decimal.Whole
import DarijaScript.Proofs.Evaluation.Compound
import DarijaScript.Proofs.Grammar.Acceptance
import DarijaScript.Proofs.Lexing.Woven
import DarijaScript.Proofs.Printing.Parts

/-!
# Numeric keys

A number that is the key of a field is written out when the object is read, and a number that selects
a field when it is selected, on two different ways. Both give the same text for every number that a
literal can stand for but infinity, and so the field that is selected is the one that was named.
-/

namespace DarijaScript

/-! ### The two texts -/

namespace Decimal.Fields

variable (fields : Fields)

theorem beq_infinity : (fields.toFloat == Decimal.infinity false) = fields.toFloat.isInf := by
  have is : Decimal.infinity false = Fields.infinity.toFloat := rfl
  rw [is, isInf_toFloat, Bool.eq_iff_iff, beq_iff, decide_eq_true_iff]
  exact and_iff_left_of_imp fields.number

theorem beq_negative_infinity : (fields.toFloat == Decimal.infinity true) = false := by
  have form : (Decimal.infinity true).toModel.unpack = .infinity .negative := rfl
  have canonical := fields.canonical
  rw [Bool.eq_false_iff, ne_eq, beq_iff_unsignedZero, form]
  generalize fields.toFloat.toModel.unpack = unpacked at canonical
  generalize fields.bits = bits at canonical
  rintro ⟨-, same⟩
  cases canonical <;> cases same

theorem text_of_isInf (infinite : fields.toFloat.isInf = true) : text fields.toFloat = "inf" := by
  have word {x : Float} (parts : unpack x = .infinite false) : text x = "inf" := by
    unfold text
    rw [parts]
    rfl
  rw [isInf_toFloat, decide_eq_true_iff] at infinite
  exact word (by rw [unpack_toFloat, if_pos infinite])

theorem text_of_beq_zero (zero : (fields.toFloat == 0) = true) : text fields.toFloat = "0" := by
  have is : (0 : Float) = (⟨0, 0, by decide, by decide, by decide⟩ : Fields).toFloat := rfl
  rw [is] at zero
  rw [eq_of_beq zero]
  rfl

/-- The text of a number that is not negative is its canonical one, unless it is infinite. -/
theorem textOfNumber_eq : textOfNumber fields.toFloat =
    if fields.toFloat.isInf then "Infinity" else text fields.toFloat := by
  unfold textOfNumber
  rw [if_neg (by rw [isNaN_toFloat]; decide), beq_infinity]
  split
  · rfl
  · rw [if_neg (by rw [beq_negative_infinity]; decide)]
    split
    · next zero => exact (fields.text_of_beq_zero zero).symm
    · rfl

end Decimal.Fields

/-- The two texts of a number that is not negative are the same unless it is infinite. -/
theorem text_eq_textOfNumber_iff (fields : Decimal.Fields) :
    Decimal.text fields.toFloat = textOfNumber fields.toFloat ↔ fields.toFloat.isInf = false := by
  rw [fields.textOfNumber_eq]
  cases infinite : fields.toFloat.isInf with
  | true =>
    rw [fields.text_of_isInf infinite, if_pos rfl]
    simp
  | false =>
    rw [if_neg Bool.false_ne_true]
    exact iff_of_true rfl rfl

/-! ### Reading -/

/-- The field that a number names in an object with this field alone, selected by the number. -/
def Expr.numericSelection (x : Float) (value : Expr) (position : Position) : Expr :=
  .member (.object [(Decimal.text x, value)]) (.computed (.literal (.number x))) position

namespace Phrase

variable {source : Nat} {lexeme : String} {value : Expr} {tokens : List Token} {position : Position}

/-- The tokens are `({n: e})[n];` with the given lexeme of a number for `n` and tokens of the given
expression for `e`; the position is that of the opening bracket. -/
inductive NumericSelection (source : Nat) (lexeme : String) (value : Expr) :
    List Token → Position → Prop
  | mk {opening brace key colon last closing bracket index end' semicolon : Token}
      {tokens : List Token} (opens : opening.isPunctuation '(' = true)
      (begins : brace.isPunctuation '\x7b' = true)
      (named : key.kind = .number ∧ key.lexeme = lexeme)
      (sign : colon.isPunctuation ':' = true) (written : Expression source tokens value)
      (ends : last.isPunctuation '\x7d' = true) (closes : closing.isPunctuation ')' = true)
      (selects : bracket.isPunctuation '[' = true)
      (selected : index.kind = .number ∧ index.lexeme = lexeme)
      (ends' : end'.isPunctuation ']' = true) (ended : semicolon.isPunctuation ';' = true) :
    NumericSelection source lexeme value
      (opening :: brace :: key :: colon :: tokens ++
        [last, closing, bracket, index, end', semicolon])
      bracket.position

theorem Atom.expression (atom : Atom source tokens value) : Expression source tokens value :=
  .chain (.ofOperand (.updated (.plain (.head (.atom atom)))) _)

/-- The tokens derive the selection, the number being the one that the lexeme is read as. -/
theorem NumericSelection.program {x : Float} (reads : Decimal.read? lexeme.toList = some x)
    (h : NumericSelection source lexeme value tokens position) :
    Program source tokens [.evaluate (.numericSelection x value position)] := by
  cases h with
  | @mk opening brace key colon last closing bracket index end' semicolon tokens opens begins named
      sign written ends closes selects selected ends' ended =>
    obtain ⟨kind, rfl⟩ := named
    obtain ⟨kind', same⟩ := selected
    have entry : Entry source (key :: colon :: tokens) (Decimal.text x, value) :=
      .mk (.number kind reads) sign written
    have object : Atom source (brace :: (key :: colon :: tokens) ++ [last])
        (.object [(Decimal.text x, value)]) := .object begins (.last entry) ends
    have group := Atom.group opens object.expression closes
    have number : Atom source [index] (.literal (.number x)) := .number kind' (same ▸ reads)
    have selection := Suffixed.suffix (.head (Primary.atom group))
      (CallSuffix.member (.computed selects number.expression ends'))
    have headless : NoStatementHead ((opening :: (brace :: (key :: colon :: tokens) ++ [last]) ++
        [closing]) ++ (bracket :: [index] ++ [end'])) := by
      intro token mem
      obtain rfl : opening = token := by simpa using mem
      constructor
      · refine Bool.eq_false_iff.mpr fun brace => ?_
        exact absurd (Token.isPunctuation_unique opens brace) (by decide)
      · refine Bool.eq_false_iff.mpr fun word => ?_
        exact absurd ((Token.kind_of_isPunctuation opens).symm.trans (Token.kind_of_isKeyword word))
          (by decide)
    have written := Expression.chain (.ofOperand (.updated (.plain selection)) _)
    have program : Program source _ _ := .cons (.evaluate written headless ended) .nil
    simpa [Expr.numericSelection] using program

end Phrase

/-! ### Evaluating -/

section

open Run

variable {fuel : Nat} {x : Float} {value : Expr} {position : Position} {machine : Machine}

/-- Where the nesting is not too deep there is room for the object and its field, and the value of the
field has the same end as on its own. -/
theorem NestsWithin.selection
    (within : NestsWithin (fuel + 2) (.numericSelection x value position) machine) :
    machine.nesting + 1 < machine.limits.nesting ∧
      Machine.evaluate fuel value machine =
        Ending.counting machine (Machine.evaluate fuel value machine.nested.nested) ∧
      Ending.counting machine.nested.nested (Machine.evaluate fuel value machine.nested.nested) =
        Machine.evaluate fuel value machine.nested.nested := by
  obtain ⟨mark, ne⟩ := exists_host_ne machine.host
  have calm : ¬ Stops mark ((refusing (.stopTrees mark) (fuel + 2)).expression
      (.numericSelection x value position)) machine := (nestsWithin_iff ne).mp within
  have calm : ¬ Stops mark ((refusing (.stopTrees mark) (fuel + 1)).expression
      (.object [(Decimal.text x, value)])) machine.nested :=
    fun stops => (room_of_calm calm).2 stops.bind
  obtain ⟨room, calm⟩ := room_of_calm calm
  have calm : ¬ Stops mark ((refusing (.stopTrees mark) fuel).expression value)
      machine.nested.nested := fun stops => calm stops.bind.bind
  exact ⟨room, evaluate_shallower calm
    ⟨⟨rfl, Nat.le_refl _, Nat.le_refl _, Nat.le_refl _, by simp; omega⟩, fun _ => ⟨rfl, rfl⟩⟩⟩

/-- An object with one field is evaluated to a new object of the store. -/
theorem evaluate_single {key : String} {found : Value} {middle : Machine}
    (room : machine.nesting < machine.limits.nesting)
    (evaluated : Machine.evaluate fuel value machine.nested = .ok found middle) :
    Machine.evaluate (fuel + 1) (.object [(key, value)]) machine =
      .ok (.object middle.store.objects.size)
        { middle with
          store := middle.store.addObject [(key, found)], nesting := machine.nesting } := by
  have entries : Evaluation.entries (interpreter fuel) [(key, value)] machine.nested =
      .ok [(key, found)] middle := by
    change (Machine.evaluate fuel value >>= _) machine.nested = _
    rw [bind_ok evaluated]
    rfl
  change deeper (Evaluation.entries (interpreter fuel) [(key, value)] >>= fun values =>
    allocateObject (Fields.ofEntries values)) machine = _
  rw [deeper_of_lt _ room, bind_ok entries]
  rfl

theorem evaluate_literal {literal : Literal} (room : machine.nesting < machine.limits.nesting) :
    Machine.evaluate (fuel + 1) (.literal literal) machine = .ok literal.value machine := by
  change deeper (pure literal.value) machine = _
  rw [deeper_of_lt _ room]
  rfl

/-- The field of a new object is found by a number exactly if it has the text of the number. -/
theorem member_new (store : Store) (key : String) (found : Value) (x : Float) :
    (store.addObject [(key, found)]).member (.object store.objects.size) (.number x) =
      if key = textOfNumber x then .ok found else .error (.undefinedMember (textOfNumber x)) := by
  have fields : (store.addObject [(key, found)]).fields store.objects.size = [(key, found)] := by
    simp [Store.addObject, Store.fields]
  have text : (store.addObject [(key, found)]).text (.number x) = textOfNumber x := by
    rw [Store.text, Store.textWithin]
  unfold Store.member
  dsimp only
  rw [fields, text, Fields.get?, List.lookup_cons, List.lookup_nil]
  by_cases same : key = textOfNumber x
  · have found : (textOfNumber x == key) = true := beq_iff_eq.mpr same.symm
    rw [if_pos same, found]
  · have missing : (textOfNumber x == key) = false := beq_eq_false_iff_ne.mpr (Ne.symm same)
    rw [if_neg same, missing]

/-- Selecting the field of a new object gives its value if the two texts of the number agree, and
else fails. -/
theorem evaluate_selection (room : machine.nesting + 1 < machine.limits.nesting) {found : Value}
    {middle : Machine}
    (evaluated : Machine.evaluate fuel value machine.nested.nested = .ok found middle)
    (balanced : middle.counting machine.nested.nested = middle) :
    Machine.evaluate (fuel + 2) (.numericSelection x value position) machine =
      (if Decimal.text x = textOfNumber x then EStateM.Result.ok found
      else .error (.exception (.fault (.undefinedMember (textOfNumber x)) position)))
        { middle.counting machine with
          store := middle.store.addObject [(Decimal.text x, found)] } := by
  rw [← balanced] at evaluated ⊢
  have selected : (Machine.evaluate (fuel + 1) (.object [(Decimal.text x, value)]) >>= fun owner =>
      Machine.evaluate (fuel + 1) (.literal (.number x)) >>= fun key =>
        located position (Run.member owner key)) machine.nested = _ :=
    (bind_ok (evaluate_single room evaluated)).trans (bind_ok (evaluate_literal room))
  have member := member_new middle.store (Decimal.text x) found x
  change deeper _ machine = _
  rw [deeper_of_lt _ (Nat.lt_of_succ_lt room)]
  refine (congrArg _ selected).trans ?_
  change Setting.restored _ (located position (ofExcept ((middle.store.addObject
    [(Decimal.text x, found)]).member (.object middle.store.objects.size) (.number x))) _) = _
  rw [member]
  split
  · rfl
  · rfl

end

theorem Lexeme.isNumber {kind : TokenKind} {lexeme : String} (h : Lexeme kind lexeme)
    (number : kind = .number) : IsNumber lexeme.toList := by
  cases h with
  | number isNumber => exact isNumber
  | word isWord =>
    rcases wordKind_cases lexeme with eq | eq | eq <;>
      · rw [eq] at number
        cases number
  | _ => cases number

theorem Phrase.NumericSelection.exists_key {source : Nat} {lexeme : String} {value : Expr}
    {tokens : List Token} {position : Position}
    (h : NumericSelection source lexeme value tokens position) :
    ∃ key ∈ tokens, key.kind = .number ∧ key.lexeme = lexeme := by
  cases h with
  | mk opens begins named => exact ⟨_, by simp, named⟩

/-- **A number selects the field that it names, unless it is infinite.** Every number that the scanner
takes in stands for a number whose text as a key is its text as a selector, but for infinity. So
`({n: e})[n]` is read as the selection of the field with the first text by the second, or is nested too
deep; and wherever `e` has a value, this is the value of the selection, unless `n` is too large for a
finite number, where no field has the name. -/
theorem numeric_key_selects {text lexeme : String} {tokens : List Token} {source : Nat} {value : Expr}
    {position : Position} (lexed : tokenize text = .ok tokens)
    (written : Phrase.NumericSelection source lexeme value tokens.dropLast position) :
    ∃ x, Decimal.read? lexeme.toList = some x ∧
      (Decimal.text x = textOfNumber x ↔ x.isInf = false) ∧
      (parse tokens source = .ok [.evaluate (.numericSelection x value position)] ∨
        ∃ error others, parse tokens source = .error (error :: others) ∧ error.isTooDeep = true) ∧
      ∀ fuel machine found after,
        NestsWithin (fuel + 2) (.numericSelection x value position) machine →
        Machine.evaluate fuel value machine = .ok found after →
        Machine.evaluate (fuel + 2) (.numericSelection x value position) machine =
          (if x.isInf then
            .error (.exception (.fault (.undefinedMember "Infinity") position))
          else EStateM.Result.ok found)
            { after with store := after.store.addObject [(Decimal.text x, found)] } := by
  obtain ⟨key, mem, kind, named⟩ := written.exists_key
  have lexical := (scanned_of_tokenize lexed key (List.mem_of_mem_dropLast mem)).lexeme
  obtain ⟨fields, reads⟩ := (named ▸ lexical.isNumber kind : IsNumber lexeme.toList).exists_fields
  have texts := text_eq_textOfNumber_iff fields
  refine ⟨fields.toFloat, reads, texts, (parse_accepts lexed source).2 _ (written.program reads), ?_⟩
  intro fuel machine found after within evaluated
  obtain ⟨room, shallower, balanced⟩ := within.selection
  rw [evaluated] at shallower
  cases ended : Machine.evaluate fuel value machine.nested.nested with
  | error interruption middle =>
    rw [ended] at shallower
    cases shallower
  | ok found' middle =>
    rw [ended] at shallower balanced
    injection balanced with _ balanced
    obtain ⟨rfl, rfl⟩ := EStateM.Result.ok.inj shallower
    rw [evaluate_selection room ended balanced]
    have display := fields.textOfNumber_eq
    cases infinite : fields.toFloat.isInf with
    | true =>
      rw [infinite, if_pos rfl] at display
      rw [if_neg (mt texts.mp (by rw [infinite]; decide)), display, if_pos rfl]
      rfl
    | false =>
      rw [if_pos (texts.mpr infinite), if_neg Bool.false_ne_true]
      rfl

/-- A number with a power of ten, which is written out as a key. -/
theorem numeric_key_selects_power : ∃ tokens x position after,
    tokenize "({1e2: s7i7})[1e2];" = .ok tokens ∧
    parse tokens 0 =
      .ok [.evaluate (.numericSelection x (.literal (.boolean true)) position)] ∧
    Machine.evaluate 3 (.numericSelection x (.literal (.boolean true)) position)
      (.initial (.scripted [] [] [] [])) = .ok (.boolean true) after := by
  let token (kind : TokenKind) (lexeme : String) (start stop : Nat) : Token :=
    ⟨kind, lexeme, ⟨1, start + 1⟩, start, stop⟩
  let tokens : List Token := [token .punctuation "(" 0 1, token .punctuation "\x7b" 1 2,
    token .number "1e2" 2 5, token .punctuation ":" 5 6, token .boolean "s7i7" 7 11,
    token .punctuation "\x7d" 11 12, token .punctuation ")" 12 13, token .punctuation "[" 13 14,
    token .number "1e2" 14 17, token .punctuation "]" 17 18, token .punctuation ";" 18 19,
    token .endOfFile "" 19 19]
  have lexed : tokenize "({1e2: s7i7})[1e2];" = .ok tokens := by
    have found : (tokenize "({1e2: s7i7})[1e2];").toOption = some tokens := by decide +kernel
    cases result : tokenize "({1e2: s7i7})[1e2];" with
    | error error =>
      rw [result] at found
      cases found
    | ok others =>
      rw [result] at found
      exact congrArg _ (Option.some.inj found)
  have value : Phrase.Expression 0 [token .boolean "s7i7" 7 11] (.literal (.boolean true)) :=
    (Phrase.Atom.boolean rfl).expression
  have named : (token .number "1e2" 2 5).kind = .number ∧ _ = "1e2" := ⟨rfl, rfl⟩
  have selected : (token .number "1e2" 14 17).kind = .number ∧ _ = "1e2" := ⟨rfl, rfl⟩
  have sign {lexeme : String} {c : Char} (first : lexeme.toList.head? = some c) (start stop : Nat) :
      (token .punctuation lexeme start stop).isPunctuation c = true := beq_iff_eq.mpr first
  have written : Phrase.NumericSelection 0 "1e2" (.literal (.boolean true)) tokens.dropLast
      ⟨1, 14⟩ :=
    .mk (sign (by decide) 0 1) (sign (by decide) 1 2) named (sign (by decide) 5 6) value
      (sign (by decide) 11 12) (sign (by decide) 12 13) (sign (by decide) 13 14) selected
      (sign (by decide) 17 18) (sign (by decide) 18 19)
  obtain ⟨x, reads, -, parsed, evaluates⟩ := numeric_key_selects lexed written
  have read : (parse tokens 0).isOk = true := by decide +kernel
  have parsed := parsed.resolve_right fun ⟨error, others, failed, _⟩ => by
    rw [failed] at read
    cases read
  obtain rfl : (Decimal.read? "1e2".toList).getD 0 = x := by rw [reads]; rfl
  have finite : ((Decimal.read? "1e2".toList).getD 0).isInf = false := by decide +kernel
  let mark : Host := .scripted [] [true] [] []
  let machine := Machine.initial (.scripted [] [] [] [])
  have other : mark ≠ machine.host := by
    intro same
    have answer := congrFun (congrFun (congrArg Host.confirm same) #[]) ""
    exact absurd answer (by decide)
  have ends : Ending.isOk ((refusing (.stopTrees mark) 3).expression (.numericSelection
      ((Decimal.read? "1e2".toList).getD 0) (.literal (.boolean true)) ⟨1, 14⟩) machine) = true := by
    decide +kernel
  have within : NestsWithin 3 (.numericSelection ((Decimal.read? "1e2".toList).getD 0)
      (.literal (.boolean true)) ⟨1, 14⟩) machine := by
    rw [nestsWithin_iff other]
    rintro ⟨after, stopped, -⟩
    rw [stopped] at ends
    cases ends
  have evaluated := evaluates 1 machine (.boolean true) machine within rfl
  rw [finite] at evaluated
  exact ⟨tokens, _, _, _, lexed, parsed, evaluated⟩

end DarijaScript
