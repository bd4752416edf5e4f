/-
  The reference grammar of workflow expressions, over characters.  A rule
  relates the input where a phrase starts to the input behind it:

    or         = or "||" and            | and
    and        = and "&&" equality      | equality
    equality   = equality ("==" | "!=") relational            | relational
    relational = relational (">" | ">=" | "<" | "<=") not     | not
    not        = "!" not                | operand
    operand    = literal                | primary
    primary    = name | "(" or ")" | name "(" [or ("," or)*] ")"
               | primary "." (name | "*") | primary "[" or "]"

  A phrase directly behind "[" may begin with "*" as its leftmost primary.
  `Tree` is what the rules build; `Tree.merge` joins directly nested "&&", and
  directly nested "||", to one node.
-/
import Velnor.Expression.Parser

namespace Velnor.Expression

open Text

/-! ## Terminals

Whitespace may stand in front of every terminal; words and numbers are as long
as they can be. -/

def Symbol (c : Char) (s rest : Str) : Prop := trimStart s = c :: rest

/-- The sign "!", which is not the beginning of "!=". -/
def Bang (s rest : Str) : Prop := Symbol '!' s rest ∧ rest.head? ≠ some '='

def Word (word s rest : Str) : Prop :=
  trimStart s = word ++ rest ∧ isLegalKeyword word = true
    ∧ ∀ c ∈ rest.head?, isTokenBoundary c = true

def startsNumber (c : Char) : Bool := c == '.' || c == '-' || c == '+' || c.isDigit

def continuesNumber (c : Char) : Bool := !isTokenBoundary c || c == '.'

/-- A string as it is written between its quotes. -/
def quoted (value : Str) : Str :=
  value.flatMap fun c => if c = '\'' then ['\'', '\''] else [c]

inductive Literal : Value → Str → Str → Prop where
  | number {c : Char} {digits s rest : Str} (hs : trimStart s = c :: digits ++ rest)
      (hc : startsNumber c = true) (hdigits : ∀ d ∈ digits, continuesNumber d = true)
      (hrest : ∀ d ∈ rest.head?, continuesNumber d = false)
      (hnumber : parseNumber (c :: digits) ≠ .nan) :
      Literal (.number (parseNumber (c :: digits))) s rest
  | string {value s rest : Str} (hs : trimStart s = '\'' :: (quoted value ++ '\'' :: rest))
      (hrest : rest.head? ≠ some '\'') : Literal (.string value) s rest
  | word {word s rest : Str} {kind : TokenKind} {value : Value} (hword : Word word s rest)
      (hvalue : LexicalAnalyzer.keywordLiteral word = some (kind, value)) : Literal value s rest

/-- The binary operators. -/
inductive Operator where
  | or | and | compare (comparison : BinaryOperator)
  deriving DecidableEq, Repr

namespace Operator

def text : Operator → Str
  | or => "||"
  | and => "&&"
  | compare .equal => "=="
  | compare .notEqual => "!="
  | compare .greaterThan => ">"
  | compare .greaterThanOrEqual => ">="
  | compare .lessThan => "<"
  | compare .lessThanOrEqual => "<="

/-- The operator stands at `s`; one of a single character is not the beginning
    of a longer one. -/
def Stands (operator : Operator) (s rest : Str) : Prop :=
  trimStart s = operator.text ++ rest ∧ (operator.text.length = 1 → rest.head? ≠ some '=')

end Operator

/-! ## Trees -/

/-- The reference tree, where every operator is binary. -/
inductive Tree where
  | literal (value : Value)
  | wildcard
  | namedValue (name : Str)
  | index (left right : Tree)
  | not (inner : Tree)
  | binary (operator : Operator) (left right : Tree)
  | call (name : Str) (args : List Tree)

/-- The nodes that a merged "&&" has from an operand. -/
def Node.conjuncts : Node → List Node
  | .and nodes => nodes
  | node => [node]

/-- The nodes that a merged "||" has from an operand. -/
def Node.disjuncts : Node → List Node
  | .or nodes => nodes
  | node => [node]

/-- Two merged operands under an operator. -/
def Operator.join (operator : Operator) (left right : Node) : Node :=
  match operator with
  | .or => .or (left.disjuncts ++ right.disjuncts)
  | .and => .and (left.conjuncts ++ right.conjuncts)
  | .compare comparison => .binary comparison left right

mutual

def Tree.merge : Tree → Node
  | .literal value => .literal value
  | .wildcard => .wildcard
  | .namedValue name => .namedValue name
  | .index left right => .index left.merge right.merge
  | .not inner => .not inner.merge
  | .binary operator left right => operator.join left.merge right.merge
  | .call name args => .function name (mergeAll args)

def mergeAll : List Tree → List Node
  | [] => []
  | tree :: trees => tree.merge :: mergeAll trees

end

mutual

/-- The number of nodes on the longest way down. -/
def Node.depth : Node → Nat
  | .literal _ | .wildcard | .namedValue _ => 1
  | .not inner => inner.depth + 1
  | .index left right | .binary _ left right => max left.depth right.depth + 1
  | .and nodes | .or nodes | .function _ nodes => depthAll nodes + 1

def depthAll : List Node → Nat
  | [] => 0
  | node :: nodes => max node.depth (depthAll nodes)

end

/-! ## Rules -/

/-- From the loosest to the tightest. -/
inductive Level where
  | or | and | equality | relational | not | operand | primary
  deriving DecidableEq, Repr

def Level.rank : Level → Nat
  | or => 0
  | and => 1
  | equality => 2
  | relational => 3
  | not => 4
  | operand => 5
  | primary => 6

instance : LE Level := ⟨fun a b => a.rank ≤ b.rank⟩

namespace Operator

def level : Operator → Level
  | or => .or
  | and => .and
  | compare .equal | compare .notEqual => .equality
  | compare _ => .relational

/-- The level of what stands to the right of the operator. -/
def rightLevel : Operator → Level
  | or => .and
  | and => .equality
  | compare .equal | compare .notEqual => .relational
  | compare _ => .not

end Operator

/-- The name of a function and the parenthesis behind it. -/
def CallHead (name s rest : Str) : Prop :=
  LexicalAnalyzer.keywordLiteral name = none ∧ ∃ behind, Word name s behind ∧ Symbol '(' behind rest

/-- A well-known function is named as the table names it. -/
def functionName (env : ParseEnvironment) (name : Str) : Str :=
  match lookupFunction env name with
  | some (canonical, _, _) => if canonical = [] then name else canonical
  | none => name

/-- A function of the name takes that many arguments. -/
def TakesArguments (env : ParseEnvironment) (name : Str) (count : Nat) : Prop :=
  ∃ canonical min max, lookupFunction env name = some (canonical, min, max)
    ∧ min ≤ count ∧ count ≤ max
    ∧ (eqIgnoreAsciiCase name "case" = true → count % 2 = 1)

inductive Form where
  /-- A phrase; `star` says that it may begin with "*". -/
  | phrase (level : Level) (star : Bool) (tree : Tree)
  /-- Arguments with a comma behind each. -/
  | leading (args : List Tree)

/-- `Derives env form s rest`: a text of the form goes from `s` to `rest`. -/
inductive Derives (env : ParseEnvironment) : Form → Str → Str → Prop where
  | lift {tight loose : Level} {star : Bool} {t : Tree} {s s' : Str} (hle : loose ≤ tight)
      (h : Derives env (.phrase tight star t) s s') : Derives env (.phrase loose star t) s s'
  | binary {operator : Operator} {star : Bool} {l r : Tree} {s s₁ s₂ s₃ : Str}
      (hl : Derives env (.phrase operator.level star l) s s₁) (hop : operator.Stands s₁ s₂)
      (hr : Derives env (.phrase operator.rightLevel false r) s₂ s₃) :
      Derives env (.phrase operator.level star (.binary operator l r)) s s₃
  | not {star : Bool} {t : Tree} {s s₁ s₂ : Str} (hbang : Bang s s₁)
      (h : Derives env (.phrase .not false t) s₁ s₂) :
      Derives env (.phrase .not star (.not t)) s s₂
  | literal {star : Bool} {value : Value} {s s' : Str} (h : Literal value s s') :
      Derives env (.phrase .operand star (.literal value)) s s'
  | namedValue {star : Bool} {name s s' : Str} (hword : Word name s s')
      (hfree : LexicalAnalyzer.keywordLiteral name = none)
      (hcall : (trimStart s').head? ≠ some '(') (hname : env.isNamedValue name = true) :
      Derives env (.phrase .primary star (.namedValue name)) s s'
  | wildcard {s s' : Str} (h : Symbol '*' s s') : Derives env (.phrase .primary true .wildcard) s s'
  | group {star : Bool} {t : Tree} {s s₁ s₂ s₃ : Str} (hopen : Symbol '(' s s₁)
      (h : Derives env (.phrase .or false t) s₁ s₂) (hclose : Symbol ')' s₂ s₃) :
      Derives env (.phrase .primary star t) s s₃
  | property {star : Bool} {t : Tree} {name s s₁ s₂ s₃ : Str}
      (h : Derives env (.phrase .primary star t) s s₁) (hdot : Symbol '.' s₁ s₂)
      (hname : Word name s₂ s₃) :
      Derives env (.phrase .primary star (.index t (.literal (.string name)))) s s₃
  | everyProperty {star : Bool} {t : Tree} {s s₁ s₂ s₃ : Str}
      (h : Derives env (.phrase .primary star t) s s₁) (hdot : Symbol '.' s₁ s₂)
      (hstar : Symbol '*' s₂ s₃) :
      Derives env (.phrase .primary star (.index t .wildcard)) s s₃
  | index {star : Bool} {t i : Tree} {s s₁ s₂ s₃ s₄ : Str}
      (h : Derives env (.phrase .primary star t) s s₁) (hopen : Symbol '[' s₁ s₂)
      (hi : Derives env (.phrase .or true i) s₂ s₃) (hclose : Symbol ']' s₃ s₄) :
      Derives env (.phrase .primary star (.index t i)) s s₄
  | emptyCall {star : Bool} {name s s₁ s₂ : Str} (hhead : CallHead name s s₁)
      (hclose : Symbol ')' s₁ s₂) (hcount : TakesArguments env name 0) :
      Derives env (.phrase .primary star (.call (functionName env name) [])) s s₂
  | call {star : Bool} {name : Str} {args : List Tree} {arg : Tree}
      {s s₁ s₂ s₃ s₄ : Str} (hhead : CallHead name s s₁)
      (hargs : Derives env (.leading args) s₁ s₂) (harg : Derives env (.phrase .or false arg) s₂ s₃)
      (hclose : Symbol ')' s₃ s₄) (hcount : TakesArguments env name (args.length + 1)) :
      Derives env (.phrase .primary star (.call (functionName env name) (args ++ [arg]))) s s₄
  | none {s : Str} : Derives env (.leading []) s s
  | comma {args : List Tree} {arg : Tree} {s s₁ s₂ s₃ : Str}
      (hargs : Derives env (.leading args) s s₁) (harg : Derives env (.phrase .or false arg) s₁ s₂)
      (hcomma : Symbol ',' s₂ s₃) : Derives env (.leading (args ++ [arg])) s s₃

/-- Nothing but whitespace. -/
def Blank (s : Str) : Prop := trimStart s = []

instance (s : Str) : Decidable (Blank s) := inferInstanceAs (Decidable (_ = _))

/-- The expression is a sentence of the grammar, with the tree. -/
def Sentence (env : ParseEnvironment) (expression : Str) (tree : Tree) : Prop :=
  ∃ rest, Derives env (.phrase .or false tree) expression rest ∧ Blank rest

end Velnor.Expression
