import DarijaScript.Proofs.Evaluation.BuiltinRules

/-!
# The constructs of the language

If a logic holds of the parts of an expression or a statement, then it holds of the construct that
the rules of evaluation make of them. Nothing is asked of the trees here. What is done in a scope of
its own is taken as a part.
-/

namespace DarijaScript

open Evaluation

variable {check : Node → Prop} {inner other : Interpreter}

/-! ### Values of expressions -/

theorem Store.meets_apply (store : Store) (op : BinaryOp) (left right : Value) :
    (store.apply op left right).Meets check := by
  unfold Store.apply
  cases op with
  | add =>
    dsimp only
    split <;> trivial
  | _ => trivial

theorem meets_unaryValue (op : UnaryOp) (value : Value) : (unaryValue op value).Meets check := by
  cases op <;> trivial

namespace RunLogic

variable {L : RunLogic check}

section

variable (L) (inner other)

/-- The logic holds of the evaluation of the expression. -/
def Evaluates (expr : Expr) : Prop :=
  L.relates (inner.expression expr) (other.expression expr) (Value.Meets check)

/-- The logic holds of the execution of the statement. -/
def Executes (stmt : Stmt) : Prop :=
  L.relates (inner.statement stmt) (other.statement stmt) (Completion.Meets check)

/-- The logic holds of the evaluation of the key that a selector denotes. -/
def Selects : Property → Prop
  | .named _ => True
  | .computed expr => L.Evaluates inner other expr

end

theorem expressions {exprs : List Expr} (each : ∀ expr ∈ exprs, L.Evaluates inner other expr) :
    L.relates (Evaluation.expressions inner exprs) (Evaluation.expressions other exprs)
      fun values => ∀ value ∈ values, value.Meets check := by
  induction exprs with
  | nil => exact L.pure (List.forall_mem_nil _)
  | cons expr rest ih =>
    obtain ⟨first, others⟩ := List.forall_mem_cons.mp each
    apply L.bind first
    intro value known
    apply L.bind (ih others)
    exact fun _ all => L.pure (List.forall_mem_cons.mpr ⟨known, all⟩)

theorem entries {fields : List (String × Expr)}
    (each : ∀ field ∈ fields, L.Evaluates inner other field.2) :
    L.relates (Evaluation.entries inner fields) (Evaluation.entries other fields)
      fun fields => ∀ field ∈ fields, field.2.Meets check := by
  induction fields with
  | nil => exact L.pure (List.forall_mem_nil _)
  | cons field rest ih =>
    obtain ⟨first, others⟩ := List.forall_mem_cons.mp each
    apply L.bind first
    intro value known
    apply L.bind (ih others)
    exact fun _ all => L.pure (List.forall_mem_cons.mpr ⟨known, all⟩)

theorem literal {literal : Literal} :
    L.relates (expression inner (.literal literal)) (expression other (.literal literal))
      (Value.Meets check) := by
  apply L.pure
  cases literal <;> trivial

theorem array {elements : List Expr}
    (each : ∀ element ∈ elements, L.Evaluates inner other element) :
    L.relates (expression inner (.array elements)) (expression other (.array elements))
      (Value.Meets check) := by
  apply L.bind (expressions each)
  exact fun values all => allocateArray fun element mem => all element (List.mem_toArray.mp mem)

theorem object {fields : List (String × Expr)}
    (each : ∀ field ∈ fields, L.Evaluates inner other field.2) :
    L.relates (expression inner (.object fields)) (expression other (.object fields))
      (Value.Meets check) := by
  apply L.bind (entries each)
  exact fun values all => allocateObject values all

theorem binary {op : BinaryOp} {left right : Expr} (first : L.Evaluates inner other left)
    (second : L.Evaluates inner other right) :
    L.relates (expression inner (.binary op left right)) (expression other (.binary op left right))
      (Value.Meets check) := by
  apply L.bind first
  intro first _
  apply L.bind second
  intro second _
  exact L.readStore fun store _ => store.meets_apply op first second

theorem logical {op : Connective} {left right : Expr} (first : L.Evaluates inner other left)
    (second : L.Evaluates inner other right) :
    L.relates (expression inner (.logical op left right))
      (expression other (.logical op left right)) (Value.Meets check) := by
  apply L.bind first
  intro value known
  cases op
  all_goals
    dsimp only
    split
    · exact L.pure known
    · exact second

theorem key {property : Property} (selects : L.Selects inner other property) :
    L.relates (Evaluation.key inner property) (Evaluation.key other property)
      (Value.Meets check) := by
  cases property with
  | named name => exact L.pure trivial
  | computed expr => exact selects

end RunLogic

/-! ### Expressions whose exceptions get their places -/

namespace StepLogic

variable {L : StepLogic check}

section

variable (L) (inner other)

/-- The logic holds of the search for the place that an expression denotes and of reading it. -/
def Denotes : Expr → Prop
  | .identifier name => L.holds (Run.lookup name.name) (Value.Meets check)
  | .member owner property _ => L.Evaluates inner other owner ∧ L.Selects inner other property
  | _ => True

end

variable (L) in
/-- The logic holds of reading the place. -/
def Reads (place : Reference) : Prop := L.holds (readReference place) (Value.Meets check)

theorem reference {expr : Expr} (denotes : L.Denotes inner other expr) :
    L.relates (Evaluation.reference inner expr) (Evaluation.reference other expr) L.Reads := by
  unfold Evaluation.reference
  split
  · exact L.pure denotes
  · apply L.bind denotes.1
    intro owner _
    exact L.bind (RunLogic.key denotes.2) fun _ _ => L.pure member
  · exact L.fault rfl

theorem arguments {args : List Expr} (each : ∀ arg ∈ args, L.Evaluates inner other arg) :
    L.relates (Evaluation.arguments inner args) (Evaluation.arguments other args)
      fun values => ∀ value ∈ values, value.Meets check := by
  unfold Evaluation.arguments
  split
  · exact L.fault rfl
  · exact RunLogic.expressions each

end StepLogic

namespace PlacedLogic

open RunLogic

variable {L : PlacedLogic check} {position : Position}

theorem isBound {name : String} : L.holds (Run.isBound name) fun _ => True :=
  L.bind L.scope fun _ _ => read

theorem identifier {name : Identifier} (placed : L.Locates name.position)
    (found : L.loose.holds (Run.lookup name.name) (Value.Meets check)) :
    L.relates (expression inner (.identifier name)) (expression other (.identifier name))
      (Value.Meets check) := placed found

theorem function {f : Function} (known : f.Meets check) :
    L.relates (expression inner (.function f)) (expression other (.function f))
      (Value.Meets check) :=
  L.bind L.scope fun _ _ => L.pure known

theorem unary {op : UnaryOp} {operand : Expr} (evaluates : L.Evaluates inner other operand) :
    L.relates (expression inner (.unary op operand)) (expression other (.unary op operand))
      (Value.Meets check) := by
  have evaluated : L.relates
      (inner.expression operand >>= fun value => Pure.pure (unaryValue op value))
      (other.expression operand >>= fun value => Pure.pure (unaryValue op value))
      (Value.Meets check) :=
    L.bind evaluates fun _ _ => L.pure (meets_unaryValue op _)
  unfold expression Evaluation.unary
  dsimp only
  split
  · apply L.bind isBound
    intro bound _
    cases bound
    · exact L.pure trivial
    · exact evaluated
  · exact evaluated

theorem member {owner : Expr} {property : Property} (placed : L.Locates position)
    (ofOwner : L.Evaluates inner other owner) (ofProperty : L.Selects inner other property) :
    L.relates (expression inner (.member owner property position))
      (expression other (.member owner property position)) (Value.Meets check) := by
  apply L.bind ofOwner
  intro owner _
  apply L.bind (key ofProperty)
  exact fun _ _ => placed StepLogic.member

theorem writeReference {place : Reference} {value : Value} (known : value.Meets check) :
    L.loose.holds (Evaluation.writeReference place value) fun _ => True := by
  match place with
  | .variable name => exact L.assign known
  | .member owner property => exact StepLogic.assignMember known

theorem assignment {op : AssignmentOp} {target value : Expr} (placed : L.Locates position)
    (into : L.loose.Denotes inner other target) (written : L.Evaluates inner other value) :
    L.relates (expression inner (.assign op target value position))
      (expression other (.assign op target value position)) (Value.Meets check) := by
  apply L.bind (placed (StepLogic.reference into))
  intro ref reads
  have put : ∀ value : Value, value.Meets check →
      L.holds (Run.located position (Evaluation.writeReference ref value) >>= fun _ =>
        Pure.pure value) (Value.Meets check) := fun value known =>
    L.bind (placed (writeReference known)) fun _ _ => L.pure known
  dsimp only
  split
  · exact L.bind written put
  · next operation _ =>
    apply L.bind (placed reads)
    intro current _
    apply L.bind written
    intro operand _
    have result : L.holds (Run.readStore (·.apply operation current operand)) (Value.Meets check) :=
      L.readStore fun store _ => store.meets_apply operation current operand
    exact L.bind result put

theorem update {op : StepOp} {before : Bool} {target : Expr} (placed : L.Locates position)
    (into : L.loose.Denotes inner other target) :
    L.relates (expression inner (.update op before target position))
      (expression other (.update op before target position)) (Value.Meets check) := by
  apply L.bind (placed (StepLogic.reference into))
  intro ref reads
  apply L.bind (placed reads)
  intro current _
  have stepped : ∀ x : Float, (Value.number x).Meets check := fun _ => trivial
  apply L.bind (placed (writeReference (stepped _)))
  exact fun _ _ => L.pure (stepped _)

section

variable (L) (inner other)

/-- The logic holds of the evaluation of what a call calls. -/
def Calls : Expr → Prop
  | .member owner property position =>
    L.Evaluates inner other owner ∧ L.Selects inner other property ∧ L.Locates position
  | target => L.Evaluates inner other target

end

theorem callee {target : Expr} (calls : L.Calls inner other target) :
    L.relates (Evaluation.callee inner target) (Evaluation.callee other target)
      fun called => called.1.Meets check ∧ called.2.Meets check := by
  unfold Evaluation.callee
  split
  · obtain ⟨ofOwner, ofProperty, placed⟩ := calls
    apply L.bind ofOwner
    intro owner known
    apply L.bind (key ofProperty)
    intro key _
    apply L.bind (placed StepLogic.member)
    exact fun f callable => L.pure ⟨callable, known⟩
  · next plain =>
    have evaluates : L.Evaluates inner other target := by
      unfold Calls at calls
      split at calls
      · exact absurd rfl (plain _ _ _)
      · exact calls
    apply L.bind evaluates
    exact fun f callable => L.pure ⟨callable, trivial⟩

variable (placed : L.Locates position) (calls : L.loose.Calls inner.call other.call)

include placed calls

theorem call {target : Expr} {args : List Expr} (called : L.Calls inner other target)
    (passed : ∀ arg ∈ args, L.loose.Evaluates inner other arg) :
    L.relates (expression inner (.call target args position))
      (expression other (.call target args position)) (Value.Meets check) := by
  apply L.bind (callee called)
  rintro ⟨f, receiver⟩ ⟨callable, owner⟩
  apply L.bind (placed (StepLogic.arguments passed))
  intro values all
  exact placed (calls f receiver values callable owner all)

theorem construct {target : Expr} {args : List Expr} (called : L.Evaluates inner other target)
    (passed : ∀ arg ∈ args, L.loose.Evaluates inner other arg) :
    L.relates (expression inner (.construct target args position))
      (expression other (.construct target args position)) (Value.Meets check) := by
  apply L.bind called
  intro constructor callable
  apply L.bind (placed (StepLogic.arguments passed))
  intro values all
  have result : ∀ receiver : Value, receiver.Meets check →
      L.relates (Run.located position (inner.call constructor receiver values))
        (Run.located position (other.call constructor receiver values)) (Value.Meets check) :=
    fun receiver known => placed (calls constructor receiver values callable known all)
  split
  · apply L.bind (allocateObject [] (List.forall_mem_nil _))
    intro object made
    apply L.bind (result object made)
    intro result known
    split
    · exact L.pure known
    · exact L.pure known
    · exact L.pure made
  · exact result .undefined trivial
  · exact result .undefined trivial
  · exact result .undefined trivial
  · exact placed (StepLogic.faultAt fun _ => rfl)

end PlacedLogic

/-! ### Statements -/

theorem meets_afterRound {flow : Completion} (known : flow.Meets check) :
    ∀ result ∈ afterRound flow, result.Meets check := by
  intro result mem
  cases flow with
  | normal | next => cases mem
  | leave =>
    cases mem
    trivial
  | giveBack value =>
    cases mem
    exact known

namespace RunLogic

variable {L : RunLogic check} {rounds : Nat}

theorem hoist {stmts : List Stmt}
    (bound : ∀ f name, .defineFunction f ∈ stmts → f.name = some name →
      L.holds (Run.scope >>= fun id => Run.define id name.name (.function f id) true)
        fun _ => True) :
    L.holds (Evaluation.hoist stmts) fun _ => True := by
  induction stmts with
  | nil => exact L.pure trivial
  | cons stmt rest ih =>
    have others := ih fun f name mem => bound f name (List.mem_cons_of_mem _ mem)
    match stmt with
    | .defineFunction f =>
      unfold Evaluation.hoist
      split
      · exact others
      · next name named =>
        have first := L.bind (bound f name List.mem_cons_self named) fun _ _ => others
        rwa [bind_assoc] at first
    | .declare _ _ _ | .block _ | .conditional _ _ _ | .whileLoop _ _ | .doWhileLoop _ _
    | .forLoop _ _ _ _ | .attempt _ _ _ | .choice _ _ | .giveBack _ | .leave | .next
    | .evaluate _ | .empty => exact others

theorem sequence {stmts : List Stmt} (each : ∀ stmt ∈ stmts, L.Executes inner other stmt) :
    L.relates (Evaluation.sequence inner stmts) (Evaluation.sequence other stmts)
      (Completion.Meets check) := by
  induction stmts with
  | nil => exact L.pure trivial
  | cons stmt rest ih =>
    obtain ⟨first, others⟩ := List.forall_mem_cons.mp each
    apply L.bind first
    intro flow known
    split
    · exact ih others
    · exact L.pure known

theorem declaration {kind : DeclarationKind} {name : Identifier} {value : Option Expr}
    (evaluates : ∀ expr ∈ value, L.Evaluates inner other expr)
    (declares : ∀ value : Value, value.Meets check →
      L.holds (Run.located name.position (Run.declare name.name value (kind = .variable)))
        fun _ => True) :
    L.relates (statement inner rounds (.declare kind name value))
      (statement other rounds (.declare kind name value)) (Completion.Meets check) := by
  have declared : ∀ value : Value, value.Meets check →
      L.holds (Run.located name.position (Run.declare name.name value (kind = .variable)) >>=
        fun _ => Pure.pure Completion.normal) (Completion.Meets check) := fun value known =>
    L.bind (declares value known) fun _ _ => L.pure trivial
  cases value with
  | none => exact declared .undefined trivial
  | some expr => exact L.bind (evaluates expr rfl) declared

theorem test {test : Expr} (evaluates : L.Evaluates inner other test) :
    L.relates (Evaluation.holds inner test) (Evaluation.holds other test) fun _ => True :=
  L.bind evaluates fun _ _ => L.pure trivial

theorem conditional {test : Expr} {consequent : Stmt} {alternate : Option Stmt}
    (tested : L.Evaluates inner other test) (yes : L.Executes inner other consequent)
    (no : ∀ stmt ∈ alternate, L.Executes inner other stmt) :
    L.relates (statement inner rounds (.conditional test consequent alternate))
      (statement other rounds (.conditional test consequent alternate))
      (Completion.Meets check) := by
  apply L.bind (RunLogic.test tested)
  intro decided _
  split
  · exact yes
  · cases alternate with
    | none => exact L.pure trivial
    | some stmt => exact no stmt rfl

/-! ### Loops -/

section

variable {body : Stmt} (executes : L.Executes inner other body)

include executes

theorem whileRound {test : Expr} (tested : L.Evaluates inner other test) :
    L.relates (Evaluation.whileRound inner test body) (Evaluation.whileRound other test body)
      fun result => ∀ flow ∈ result, flow.Meets check := by
  apply L.bind (RunLogic.test tested)
  intro goes _
  split
  · apply L.bind executes
    exact fun flow known => L.pure (meets_afterRound known)
  · exact L.pure (by rintro _ ⟨⟩; trivial)

theorem doWhileRound {test : Expr} (tested : L.Evaluates inner other test) :
    L.relates (Evaluation.doWhileRound inner body test) (Evaluation.doWhileRound other body test)
      fun result => ∀ flow ∈ result, flow.Meets check := by
  apply L.bind executes
  intro flow known
  split
  · next ends eq => exact L.pure (eq ▸ meets_afterRound known)
  · apply L.bind (RunLogic.test tested)
    intro goes _
    split
    · exact L.pure nofun
    · exact L.pure (by rintro _ ⟨⟩; trivial)

omit executes in
theorem goesOn {test : Option Expr} (tested : ∀ expr ∈ test, L.Evaluates inner other expr) :
    L.relates (Evaluation.goesOn inner test) (Evaluation.goesOn other test) fun _ => True := by
  cases test with
  | none => exact L.pure trivial
  | some expr => exact RunLogic.test (tested expr rfl)

omit executes in
theorem stepOn {renews : Bool} {update : Option Expr}
    (renewed : L.holds Run.renewScope fun _ => True)
    (updated : ∀ expr ∈ update, L.Evaluates inner other expr) :
    L.relates (Evaluation.stepOn inner renews update) (Evaluation.stepOn other renews update)
      fun _ => True := by
  have stepped : L.relates (Evaluation.stepOn inner false update)
      (Evaluation.stepOn other false update) fun _ => True := by
    cases update with
    | none => exact L.pure trivial
    | some expr => exact L.bind (updated expr rfl) fun _ _ => L.pure trivial
  cases renews
  · exact stepped
  · exact L.bind renewed fun _ _ => stepped

variable {test update : Option Expr} (renewed : L.holds Run.renewScope fun _ => True)
  (tested : ∀ expr ∈ test, L.Evaluates inner other expr)
  (updated : ∀ expr ∈ update, L.Evaluates inner other expr)

include renewed tested updated

theorem forRound {renews : Bool} :
    L.relates (Evaluation.forRound inner renews test update body)
      (Evaluation.forRound other renews test update body)
      fun result => ∀ flow ∈ result, flow.Meets check := by
  apply L.bind (goesOn tested)
  intro goes _
  split
  · apply L.bind executes
    intro flow known
    split
    · next ends eq => exact L.pure (eq ▸ meets_afterRound known)
    · exact L.bind (stepOn renewed updated) fun _ _ => L.pure nofun
  · exact L.pure (by rintro _ ⟨⟩; trivial)

theorem forLoop {start : Option Stmt}
    (begins : ∀ stmt ∈ start, L.Executes inner other stmt) :
    L.relates (Evaluation.forLoop inner rounds start test update body)
      (Evaluation.forLoop other rounds start test update body) (Completion.Meets check) := by
  have round : ∀ renews, L.relates
      (Run.repeatUntil (Evaluation.forRound inner renews test update body) rounds)
      (Run.repeatUntil (Evaluation.forRound other renews test update body) rounds)
      (Completion.Meets check) := fun renews =>
    repeatUntil (forRound executes renewed tested updated) rounds
  cases start with
  | none => exact round false
  | some stmt => exact L.bind (begins stmt rfl) fun _ _ => round _

end

/-! ### Handlers and choices -/

/-- What is known of the outcome of the tried statements is also known of the one of the handler. -/
theorem attempt {body : List Stmt} {handler : Option (Identifier × List Stmt)}
    {finalizer : Option (List Stmt)} {ended : Except Exception Completion → Prop}
    (tried : L.relates (Run.outcome (block inner body)) (Run.outcome (block other body)) ended)
    (handled : ∀ result, ended result →
      L.relates (handle inner handler result) (handle other handler result) ended)
    (closes : ∀ final ∈ finalizer,
      L.relates (block inner final) (block other final) (Completion.Meets check))
    (ends : ∀ result, ended result → L.holds (Run.ofOutcome result) (Completion.Meets check)) :
    L.relates (statement inner rounds (.attempt body handler finalizer))
      (statement other rounds (.attempt body handler finalizer)) (Completion.Meets check) := by
  apply L.bind tried
  intro first known
  apply L.bind (handled first known)
  intro result known
  cases finalizer with
  | none => exact ends result known
  | some final =>
    apply L.bind (closes final rfl)
    intro flow meets
    split
    · exact ends result known
    · exact L.pure meets

theorem matchingClauses {value : Value} {cases : List Case}
    (tested : ∀ clause ∈ cases, ∀ test ∈ clause.test, L.Evaluates inner other test) :
    L.relates (Evaluation.matchingClauses inner value cases)
      (Evaluation.matchingClauses other value cases)
      fun result => ∀ chosen ∈ result, chosen <:+ cases := by
  induction cases with
  | nil => exact L.pure nofun
  | cons clause rest ih =>
    obtain ⟨first, others⟩ := List.forall_mem_cons.mp tested
    have further := mono (ih others) fun result suffix chosen mem =>
      (suffix chosen mem).trans (List.suffix_cons clause rest)
    unfold Evaluation.matchingClauses
    split
    · exact further
    · next test eq =>
      apply L.bind (first test eq)
      intro found _
      split
      · apply L.pure
        rintro _ ⟨⟩
        exact List.suffix_refl _
      · exact further

theorem choice {subject : Expr} {cases : List Case} (chosen : L.Evaluates inner other subject)
    (tested : ∀ clause ∈ cases, ∀ test ∈ clause.test, L.Evaluates inner other test)
    (executed : ∀ chosen, chosen <:+ cases →
      L.relates (Run.newScope >>= fun id => Run.inScope id (clauses inner chosen))
        (Run.newScope >>= fun id => Run.inScope id (clauses other chosen))
        (Completion.Meets check)) :
    L.relates (statement inner rounds (.choice subject cases))
      (statement other rounds (.choice subject cases)) (Completion.Meets check) := by
  apply L.bind chosen
  intro value _
  apply L.bind (matchingClauses tested)
  intro matching suffix
  have tail : matching.getD (defaultClauses cases) <:+ cases := by
    cases matching with
    | none => exact List.dropWhile_suffix _
    | some chosen => exact suffix chosen rfl
  split
  · exact L.pure trivial
  · exact executed _ tail

theorem giveBack {value : Option Expr}
    (evaluates : ∀ expr ∈ value, L.Evaluates inner other expr) :
    L.relates (statement inner rounds (.giveBack value)) (statement other rounds (.giveBack value))
      (Completion.Meets check) := by
  cases value with
  | none => exact L.pure trivial
  | some expr => exact L.bind (evaluates expr rfl) fun _ known => L.pure known

theorem evaluate {expr : Expr} (evaluates : L.Evaluates inner other expr) :
    L.relates (statement inner rounds (.evaluate expr)) (statement other rounds (.evaluate expr))
      (Completion.Meets check) :=
  L.bind evaluates fun _ _ => L.pure trivial

end RunLogic

/-! ### Callbacks after a program -/

theorem StepLogic.drain {L : StepLogic check}
    (next : L.holds Run.nextAppointment fun waiting => ∀ appointment ∈ waiting,
      appointment.callback.Meets check ∧ ∀ arg ∈ appointment.args, arg.Meets check)
    (limit : L.holds (Run.fault (.firingLimit maxFirings) : Run Unit) fun _ => True)
    (calls : L.Calls inner.call other.call) (firings : Nat) :
    L.relates (Evaluation.drain inner firings) (Evaluation.drain other firings) fun _ => True := by
  induction firings with
  | zero =>
    apply L.bind next
    intro waiting _
    cases waiting with
    | none => exact L.pure trivial
    | some appointment => exact limit
  | succ firings ih =>
    apply L.bind next
    intro waiting known
    cases waiting with
    | none => exact L.pure trivial
    | some appointment =>
      obtain ⟨callable, passed⟩ := known appointment rfl
      apply L.bind (calls appointment.callback .undefined appointment.args callable trivial passed)
      intro _ _
      apply L.bind
      · exact L.changeAgenda (fun agenda => agenda.clock_renew appointment) fun agenda waiting =>
          waiting.renew callable passed
      · exact fun _ _ => ih

end DarijaScript
