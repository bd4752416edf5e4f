/-
  The parser of workflow expressions (expression/parser.rs): a shunting-yard
  over an operand stack and an operator stack, both with the top first.  The
  places where the source relies on a stack being deep enough are kept: an
  underflow is an internal error, a failed `expect` is a panic.
-/
import Velnor.Expression.Lexer
import Velnor.Relational.Script

namespace Velnor.Expression

open Text Relational List

/-- How a parse ends without a result. -/
inductive Stop where
  | error (error : ParseError)
  | panic (message : Str)
  deriving DecidableEq, Repr

/-- The names and arities a parse needs to know about. -/
structure ParseEnvironment where
  isNamedValue : Str → Bool
  functionArity : Str → Option (Nat × Nat)

/-- Least and greatest parameter counts of the well-known functions. -/
def wellKnownFunctions : List (Str × Nat × Nat) := [
  ("case", 3, 255),
  ("contains", 2, 2),
  ("endsWith", 2, 2),
  ("format", 1, 255),
  ("join", 1, 2),
  ("startsWith", 2, 2),
  ("toJson", 1, 1),
  ("fromJson", 1, 1)]

/-- The canonical name, empty for a function of the environment, and the arity. -/
def lookupFunction (env : ParseEnvironment) (name : Str) : Option (Str × Nat × Nat) :=
  match wellKnownFunctions.find? fun known => eqIgnoreAsciiCase known.1 name with
  | some known => some known
  | none => (env.functionArity name).map fun arity => ([], arity.1, arity.2)

structure Stacks where
  operands : List Node
  operators : List Token

/-- `Option::expect`. -/
def expect {α : Type} (value : Option α) (message : Str) : Except Stop α :=
  match value with
  | some value => .ok value
  | none => .error (.panic message)

/-- The nodes an operand brings to an `And` or to an `Or`: those of a node of
    the same operator, itself otherwise. -/
def mergedOperands (isAnd : Bool) : Node → List Node
  | .and nested => if isAnd then nested else [.and nested]
  | .or nested => if isAnd then [.or nested] else nested
  | operand => [operand]

def comparison (raw : Str) : Option BinaryOperator :=
  if raw = "==" then some .equal
  else if raw = "!=" then some .notEqual
  else if raw = ">" then some .greaterThan
  else if raw = ">=" then some .greaterThanOrEqual
  else if raw = "<" then some .lessThan
  else if raw = "<=" then some .lessThanOrEqual
  else none

def indexNode (operands : List Node) : Except Stop Node := do
  let left ← expect operands[0]? "index has a left operand"
  let right ← expect operands[1]? "index has a right operand"
  .ok (.index left right)

/-- Operators a flush stops at. -/
def barriers : List TokenKind := [.startGroup, .startIndex, .startParameters, .separator]

section
variable (expression : Str) (env : ParseEnvironment)

def internalError (detail : Str) : Stop := .error (ParseError.internal expression detail)

/-- The top `count` operands in the order they were written, and those below. -/
def popOperands : Nat → List Node → Except Stop (List Node × List Node)
  | 0, operands => .ok ([], operands)
  | _ + 1, [] => .error (internalError expression "operand stack underflow")
  | count + 1, top :: operands => do
    let (popped, below) ← popOperands count operands
    .ok (popped ++ [top], below)

def popOperator (expected : TokenKind) (operators : List Token) :
    Except Stop (Token × List Token) :=
  match operators with
  | [] => .error (internalError expression "operator stack underflow")
  | token :: below =>
    if token.kind ≠ expected then
      .error (internalError expression ("expected operator " ++ expected.debug
        ++ " to be popped, found " ++ token.kind.debug))
    else .ok (token, below)

/-! ## Flushing -/

def operatorNode (operator : Token) (operands : List Node) : Except Stop Node :=
  match operator.kind with
  | .logicalOperator =>
    if operator.rawValue = "!" then
      (expect operands[0]? "one operand").map .not
    else if operator.rawValue = "&&" then .ok (.and (operands.flatMap (mergedOperands true)))
    else if operator.rawValue = "||" then .ok (.or (operands.flatMap (mergedOperands false)))
    else
      match comparison operator.rawValue with
      | none => .error (internalError expression
          ("unexpected logical operator '" ++ operator.rawValue ++ "'"))
      | some comparison => do
        let left ← expect operands[0]? "binary operator has a left operand"
        let right ← expect operands[1]? "binary operator has a right operand"
        .ok (.binary comparison left right)
  | .dereference | .startIndex => indexNode operands
  | other => .error (internalError expression ("unexpected operator kind " ++ other.debug))

def flushTopEndIndex (stack : Stacks) : Except Stop Stacks := do
  let (_, operators) ← popOperator expression .endIndex stack.operators
  let (operator, operators) ← popOperator expression .startIndex operators
  let (popped, operands) ← popOperands expression operator.operandCount stack.operands
  let node ← indexNode popped
  .ok ⟨node :: operands, operators⟩

/-- The arity checks of a call whose opening token is `start`. -/
def checkArity (start : Token) (name : Str) (count : Nat) : Except Stop Unit :=
  let failed (kind : ParseErrorKind) : Except Stop Unit :=
    .error (.error (.withToken kind start expression))
  match lookupFunction env name with
  | none => failed .unrecognizedFunction
  | some (_, min, max) =>
    if count < min then failed .tooFewParameters
    else if count > max then failed .tooManyParameters
    else if eqIgnoreAsciiCase name "case" ∧ count % 2 = 0 then failed .evenParameters
    else .ok ()

variable (last : Option TokenKind) (stack : Stacks)

/-- The parameters of a call with the operators and operands below them.  One
    that closes right behind its opening token has none. -/
def popParameters : Except Stop (List Node × Stacks) :=
  if last = some .startParameters then .ok ([], stack)
  else
    let separators := stack.operators.takeWhile fun token => token.kind = .separator
    let operators := stack.operators.dropWhile fun token => token.kind = .separator
    (popOperands expression (1 + separators.length) stack.operands).map fun popped =>
      (popped.1, ⟨popped.2, operators⟩)

def flushTopEndParameters : Except Stop Stacks := do
  let (_, operators) ← popOperator expression .endParameters stack.operators
  let (parameters, stack) ← popParameters expression last ⟨stack.operands, operators⟩
  match stack.operands with
  | .function name args :: operands =>
    let args := args ++ parameters
    let (start, operators) ← popOperator expression .startParameters stack.operators
    checkArity expression env start name args.length
    .ok ⟨.function name args :: operands, operators⟩
  | _ => .error (internalError expression "expected a function node on the operand stack")

def flushTopOperator : Except Stop Stacks :=
  match stack.operators with
  | [] => .error (internalError expression "operator stack underflow")
  | operator :: operators =>
    match operator.kind with
    | .endIndex => flushTopEndIndex expression stack
    | .endGroup => do
      let (_, operators) ← popOperator expression .endGroup stack.operators
      let (_, operators) ← popOperator expression .startGroup operators
      .ok ⟨stack.operands, operators⟩
    | .endParameters => flushTopEndParameters expression env last stack
    | _ => do
      let (popped, operands) ← popOperands expression operator.operandCount stack.operands
      let node ← operatorNode expression operator popped
      .ok ⟨node :: operands, operators⟩

/-! Every flush takes at least one operator off, so the loops end. -/

variable {expression} {env}

theorem popOperator_eq_ok {expected : TokenKind} {operators below : List Token} {token : Token} :
    popOperator expression expected operators = .ok (token, below)
      ↔ operators = token :: below ∧ token.kind = expected := by
  cases operators with
  | nil => simp [popOperator]
  | cons top =>
    by_cases hkind : top.kind = expected
    · simp only [popOperator, hkind, ne_eq, not_true_eq_false, if_false, Except.ok.injEq,
        Prod.mk.injEq, cons.injEq]
      constructor
      · rintro ⟨rfl, rfl⟩
        exact ⟨⟨rfl, rfl⟩, hkind⟩
      · rintro ⟨⟨rfl, rfl⟩, -⟩
        exact ⟨rfl, rfl⟩
    · simp only [popOperator, ne_eq, hkind, not_false_eq_true, if_true, reduceCtorEq, false_iff]
      rintro ⟨h, hkind'⟩
      cases h
      exact hkind hkind'

variable {last stack} {flushed : Stacks}

theorem popParameters_length_le {below : Stacks} {parameters : List Node}
    (h : popParameters expression last stack = .ok (parameters, below)) :
    below.operators.length ≤ stack.operators.length := by
  unfold popParameters at h
  split at h
  · cases h
    exact le_refl _
  cases hpop : popOperands expression
      (1 + (stack.operators.takeWhile fun token => token.kind = .separator).length)
      stack.operands with
  | error _ => simp [hpop, Except.map] at h
  | ok _ =>
    simp only [hpop, Except.map, Except.ok.injEq, Prod.mk.injEq] at h
    rw [← h.2]
    exact (dropWhile_suffix _).length_le

theorem flushTopEndIndex_shrinks (h : flushTopEndIndex expression stack = .ok flushed) :
    flushed.operators.length < stack.operators.length := by
  obtain ⟨⟨_, _⟩, hclose, h⟩ := bind_eq_ok.mp h
  obtain ⟨⟨_, _⟩, hopen, h⟩ := bind_eq_ok.mp h
  obtain ⟨⟨_, _⟩, -, h⟩ := bind_eq_ok.mp h
  obtain ⟨_, -, h⟩ := bind_eq_ok.mp h
  rw [(popOperator_eq_ok.mp hclose).1, (popOperator_eq_ok.mp hopen).1]
  cases h
  simp only [length_cons]
  omega

theorem flushTopEndParameters_shrinks
    (h : flushTopEndParameters expression env last stack = .ok flushed) :
    flushed.operators.length < stack.operators.length := by
  obtain ⟨⟨_, _⟩, hclose, h⟩ := bind_eq_ok.mp h
  obtain ⟨⟨_, inner⟩, hparameters, h⟩ := bind_eq_ok.mp h
  have hle := popParameters_length_le hparameters
  rw [(popOperator_eq_ok.mp hclose).1]
  cases hfunction : inner.operands with
  | nil => simp [hfunction] at h
  | cons node =>
    cases node with
    | function =>
      simp only [hfunction] at h
      obtain ⟨⟨_, _⟩, hopen, h⟩ := bind_eq_ok.mp h
      obtain ⟨_, -, h⟩ := bind_eq_ok.mp h
      rw [(popOperator_eq_ok.mp hopen).1] at hle
      cases h
      simp only [length_cons] at hle ⊢
      omega
    | _ => simp [hfunction] at h

theorem flushTopOperator_shrinks (h : flushTopOperator expression env last stack = .ok flushed) :
    flushed.operators.length < stack.operators.length := by
  unfold flushTopOperator at h
  split at h
  · cases h
  rename_i _ hstack
  split at h
  · exact flushTopEndIndex_shrinks h
  · obtain ⟨⟨_, _⟩, hclose, h⟩ := bind_eq_ok.mp h
    obtain ⟨⟨_, _⟩, hopen, h⟩ := bind_eq_ok.mp h
    rw [(popOperator_eq_ok.mp hclose).1, (popOperator_eq_ok.mp hopen).1]
    cases h
    simp only [length_cons]
    omega
  · exact flushTopEndParameters_shrinks h
  · obtain ⟨⟨_, _⟩, -, h⟩ := bind_eq_ok.mp h
    obtain ⟨_, -, h⟩ := bind_eq_ok.mp h
    cases h
    rw [hstack]
    exact Nat.lt_succ_self _

variable (expression) (env)

/-- Flushes the operators that bind at least as tightly as `precedence`. -/
def flushWhile (last : Option TokenKind) (precedence : Nat) (stack : Stacks) : Except Stop Stacks :=
  match stack.operators with
  | [] => .ok stack
  | top :: _ =>
    if precedence ≤ top.precedence ∧ top.kind ∉ barriers then
      match _h : flushTopOperator expression env last stack with
      | .error stop => .error stop
      | .ok flushed => flushWhile last precedence flushed
    else .ok stack
termination_by stack.operators.length
decreasing_by exact flushTopOperator_shrinks _h

/-- Flushes every operator. -/
def flushAll (last : Option TokenKind) (stack : Stacks) : Except Stop Stacks :=
  match stack.operators with
  | [] => .ok stack
  | _ :: _ =>
    match _h : flushTopOperator expression env last stack with
    | .error stop => .error stop
    | .ok flushed => flushAll last flushed
termination_by stack.operators.length
decreasing_by exact flushTopOperator_shrinks _h

/-! ## Tokens -/

def pushOperand (token : Token) (stack : Stacks) : Except Stop Stacks :=
  let push (node : Node) : Except Stop Stacks := .ok ⟨node :: stack.operands, stack.operators⟩
  match token.kind with
  | .function =>
    match lookupFunction env token.rawValue with
    | none => .error (.error (.withToken .unrecognizedFunction token expression))
    | some (canonical, _, _) =>
      push (.function (if canonical = [] then token.rawValue else canonical) [])
  | .namedValue =>
    if env.isNamedValue token.rawValue = false then
      .error (.error (.withToken .unrecognizedNamedValue token expression))
    else push (.namedValue token.rawValue)
  | .wildcard => push .wildcard
  | .propertyName => push (.literal (.string token.rawValue))
  | .null | .boolean | .number | .string => push (.literal (token.parsedValue.getD .null))
  | other => .error (internalError expression
      ("token kind " ++ other.debug ++ " is not an operand"))

variable (last : Option TokenKind) (token : Token) (stack : Stacks)

def pushOperator : Except Stop Stacks := do
  let stack ←
    if token.associativity = .leftToRight then
      flushWhile expression env last token.precedence stack
    else .ok stack
  let stack : Stacks := ⟨stack.operands, token :: stack.operators⟩
  if token.kind ∈ [.endGroup, .endIndex, .endParameters] then
    flushTopOperator expression env last stack
  else .ok stack

def pushToken : Except Stop Stacks :=
  if token.kind = .unexpected then
    .error (.error (.withToken .unexpectedSymbol token expression))
  else if token.isOperator then pushOperator expression env last token stack
  else pushOperand expression env token stack

/-! ## The parse -/

end

structure ParseContext where
  lexer : LexicalAnalyzer
  stack : Stacks
  lastToken : Option Token

namespace ParseContext

def new (expression : Str) : ParseContext := ⟨.new expression, ⟨[], []⟩, none⟩

def lastKind (context : ParseContext) : Option TokenKind := context.lastToken.map (·.kind)

end ParseContext

section
variable (expression : Str) (env : ParseEnvironment)

/-- The loop over the tokens. -/
def pushTokens (context : ParseContext) : Except Stop ParseContext :=
  match _h : context.lexer.nextToken with
  | none => .ok context
  | some (token, lexer) =>
    match pushToken expression env context.lastKind token context.stack with
    | .error stop => .error stop
    | .ok stack => pushTokens ⟨lexer, stack, some token⟩
termination_by context.lexer.rest.length
decreasing_by exact LexicalAnalyzer.nextToken_shrinks _h

/-- The check on one node. -/
def checkDepth (depth : Nat) : Except Stop Unit :=
  if depth > maxDepth then .error (.error (.withoutToken .exceededMaxDepth)) else .ok ()

mutual

def checkMaxDepth (depth : Nat) : Node → Except Stop Unit
  | .literal _ | .wildcard | .namedValue _ => checkDepth depth
  | .not inner => do
    checkDepth depth
    checkMaxDepth (depth + 1) inner
  | .index left right | .binary _ left right => do
    checkDepth depth
    checkMaxDepth (depth + 1) left
    checkMaxDepth (depth + 1) right
  | .and nodes | .or nodes | .function _ nodes => do
    checkDepth depth
    checkMaxDepths (depth + 1) nodes

/-- The check on the children of a node. -/
def checkMaxDepths (depth : Nat) : List Node → Except Stop Unit
  | [] => .ok ()
  | node :: nodes => do
    checkMaxDepth depth node
    checkMaxDepths depth nodes

end

/-- The last token cannot end an expression. -/
def unexpectedLastToken (token : Token) : Bool :=
  match token.kind with
  | .endGroup | .endIndex | .endParameters => false
  | .function => true
  | _ => token.isOperator

/-- What is done at the end of the expression. -/
def finish (context : ParseContext) : Except Stop (Option Node) :=
  match context.lastToken with
  | none => .ok none
  | some lastToken =>
    let unexpectedEnd : Except Stop (Option Node) :=
      .error (.error (.withToken .unexpectedEndOfExpression lastToken expression))
    if context.stack.operators ≠ []
        ∧ (unexpectedLastToken lastToken || context.lexer.hasUnclosedTokens) then unexpectedEnd
    else do
      let stack ← flushAll expression env context.lastKind context.stack
      if stack.operands.length ≠ 1 then unexpectedEnd
      else do
        let result ← expect stack.operands.head? "exactly one operand remains"
        checkMaxDepth 1 result
        .ok (some result)

def parse : Except Stop (Option Node) :=
  if expression.length > maxLength then .error (.error (.withoutToken .exceededMaxLength))
  else do
    let context ← pushTokens expression env (.new expression)
    finish expression env context

end

end Velnor.Expression
