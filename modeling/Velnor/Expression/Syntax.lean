/-
  Values, syntax trees, tokens and errors of workflow expressions
  (expression/mod.rs, value.rs and lexer.rs).  Strings are lists of characters,
  and a position counts characters.
-/
import Velnor.Text.Double

namespace Velnor.Expression

open Text

/-! ## Trees -/

/-- The values a literal can have. -/
inductive Value where
  | null
  | boolean (value : Bool)
  | number (value : Double)
  | string (value : Str)
  deriving DecidableEq, Repr

/-- The comparisons. -/
inductive BinaryOperator where
  | equal | notEqual | greaterThan | greaterThanOrEqual | lessThan | lessThanOrEqual
  deriving DecidableEq, Repr

/-- The parsed form of an expression. -/
inductive Node where
  | literal (value : Value)
  | wildcard
  | namedValue (name : Str)
  | index (left right : Node)
  | not (inner : Node)
  | and (nodes : List Node)
  | or (nodes : List Node)
  | binary (operator : BinaryOperator) (left right : Node)
  | function (name : Str) (args : List Node)

/-! ## Errors -/

/-- The depth a parsed tree may have. -/
def maxDepth : Nat := 50

/-- The number of characters an expression may have. -/
def maxLength : Nat := 21000

/-- The reasons for which an expression is refused. -/
inductive ParseErrorKind where
  | exceededMaxDepth
  | exceededMaxLength
  | tooFewParameters
  | tooManyParameters
  | evenParameters
  | unexpectedEndOfExpression
  | unexpectedSymbol
  | unrecognizedFunction
  | unrecognizedNamedValue
  | internal
  deriving DecidableEq, Repr

/-- The text of a reason. -/
def ParseErrorKind.description : ParseErrorKind → Str
  | exceededMaxDepth => "Exceeded max expression depth " ++ Nat.toDigits 10 maxDepth
  | exceededMaxLength => "Exceeded max expression length " ++ Nat.toDigits 10 maxLength
  | tooFewParameters => "Too few parameters supplied"
  | tooManyParameters => "Too many parameters supplied"
  | evenParameters =>
    "Even number of parameters supplied, requires an odd number of parameters"
  | unexpectedEndOfExpression => "Unexpected end of expression"
  | unexpectedSymbol => "Unexpected symbol"
  | unrecognizedFunction => "Unrecognized function"
  | unrecognizedNamedValue => "Unrecognized named-value"
  | internal => "Invalid expression"

/-- A refusal with its message. -/
structure ParseError where
  kind : ParseErrorKind
  message : Str
  deriving DecidableEq, Repr

/-! ## Tokens -/

/-- The kinds of tokens. -/
inductive TokenKind where
  | startGroup | startIndex | startParameters | endGroup | endIndex | endParameters
  | separator | dereference | wildcard | logicalOperator
  | null | boolean | number | string | propertyName | function | namedValue
  | unexpected
  deriving DecidableEq, Repr

/-- The name a kind is printed with in an internal error. -/
def TokenKind.debug : TokenKind → Str
  | startGroup => "StartGroup"
  | startIndex => "StartIndex"
  | startParameters => "StartParameters"
  | endGroup => "EndGroup"
  | endIndex => "EndIndex"
  | endParameters => "EndParameters"
  | separator => "Separator"
  | dereference => "Dereference"
  | wildcard => "Wildcard"
  | logicalOperator => "LogicalOperator"
  | null => "Null"
  | boolean => "Boolean"
  | number => "Number"
  | string => "String"
  | propertyName => "PropertyName"
  | function => "Function"
  | namedValue => "NamedValue"
  | unexpected => "Unexpected"

/-- How operators of one precedence group. -/
inductive Associativity where
  | none | leftToRight | rightToLeft
  deriving DecidableEq, Repr

/-- A piece of the expression. -/
structure Token where
  kind : TokenKind
  rawValue : Str
  /-- Character index of the token's start. -/
  index : Nat
  parsedValue : Option Value
  deriving DecidableEq, Repr

namespace Token

/-- The tokens that go to the operator stack. -/
def isOperator (token : Token) : Bool :=
  match token.kind with
  | .startGroup | .startIndex | .startParameters | .endGroup | .endIndex | .endParameters
  | .separator | .dereference | .logicalOperator => true
  | _ => false

/-- The grouping of a token. -/
def associativity (token : Token) : Associativity :=
  if token.kind = .startGroup then .none
  else if token.kind = .logicalOperator ∧ token.rawValue = "!" then .rightToLeft
  else if token.isOperator then .leftToRight
  else .none

/-- How tightly a token binds. -/
def precedence (token : Token) : Nat :=
  match token.kind with
  | .startGroup => 20
  | .startIndex | .startParameters | .dereference => 19
  | .logicalOperator =>
    if token.rawValue = "!" then 16
    else if token.rawValue ∈ [">".toList, ">=".toList, "<".toList, "<=".toList] then 11
    else if token.rawValue ∈ ["==".toList, "!=".toList] then 10
    else if token.rawValue = "&&" then 6
    else if token.rawValue = "||" then 5
    else 0
  | .endGroup | .endIndex | .endParameters | .separator => 1
  | _ => 0

/-- How many operands a token takes. -/
def operandCount (token : Token) : Nat :=
  match token.kind with
  | .startIndex | .dereference => 2
  | .logicalOperator =>
    if token.rawValue = "!" then 1
    else if token.rawValue ∈ [">".toList, ">=".toList, "<".toList, "<=".toList, "==".toList,
        "!=", "&&", "||"] then 2
    else 0
  | _ => 0

end Token

namespace ParseError

/-- An error at a token. -/
def withToken (kind : ParseErrorKind) (token : Token) (expression : Str) : ParseError :=
  ⟨kind, kind.description ++ ": '" ++ token.rawValue
    ++ "'. Located at position " ++ Nat.toDigits 10 (token.index + 1)
    ++ " within expression: " ++ expression⟩

/-- An error without a place. -/
def withoutToken (kind : ParseErrorKind) : ParseError := ⟨kind, kind.description⟩

/-- A parse that should not have come to this. -/
def internal (expression detail : Str) : ParseError :=
  ⟨.internal, "Invalid expression: " ++ detail ++ ". Expression: " ++ expression⟩

end ParseError

end Velnor.Expression
