/-
  The evaluator of parsed expressions (expression/eval.rs).  An argument of a
  function is a computation that the function runs when it needs the value.

  The state of an evaluation counts the allocations, so that every new array or
  object has storage of its own, and lists the evaluated nodes in order.  `And`
  and `Or` nodes are not listed, only their operands.
-/
import Velnor.Evaluation.Format
import Velnor.Expression.Parser

namespace Velnor.Evaluation

open Context Text
open Expression (Node BinaryOperator ParseEnvironment)

/-- The state of an evaluation. -/
structure Run where
  next : Nat
  visited : List Node

/-- The root contexts and the functions of the runner; both may allocate. -/
structure EvaluationContext (N : Type) extends ParseEnvironment where
  namedValue : Str → StateM Nat (Value N)
  callFunction : Str → List (Value N) → StateM Nat (Except ExpressionError (Value N))

/-- Computations of an evaluation. -/
abbrev RunM := Eval Run

section

variable {N : Type}

/-- A computation that only allocates. -/
def onHeap {α : Type} (computation : StateM Nat α) : RunM α := fun run =>
  let (result, next) := computation run.next
  (.ok result, { run with next })

/-- Storage for a new array or object. -/
def allocate : StateM Nat Nat := fun next => (next, next + 1)

/-- The array a filter gives. -/
def filtered (items : List (Value N)) : RunM (Value N) := do
  return .array (← onHeap allocate) true items

/-- Lists an evaluated node. -/
def visit (node : Node) : RunM Unit :=
  modify fun run => { run with visited := run.visited ++ [node] }

variable [Preorder N] [DecidableLE N] [DecidableLT N] (lib : Library N)

/-! ## Operators -/

/-- The loop over the operands of `And` and `Or`: the first value that stops it
    is the result, the last one otherwise. -/
def shortCircuit (stops : Value N → Bool) (result : Value N) :
    List (RunM (Value N)) → RunM (Value N)
  | [] => return result
  | parameter :: parameters => do
    let result ← parameter
    if stops result then return result else shortCircuit stops result parameters

/-- The comparison that an operator stands for. -/
def compare (operator : BinaryOperator) (left right : Value N) : Bool :=
  match operator with
  | .equal => left.abstractEqual lib right
  | .notEqual => left.abstractNotEqual lib right
  | .greaterThan => left.abstractGreaterThan lib right
  | .greaterThanOrEqual => left.abstractGreaterThanOrEqual lib right
  | .lessThan => left.abstractLessThan lib right
  | .lessThanOrEqual => left.abstractLessThanOrEqual lib right

/-- The key that an index names. -/
def stringIndex (value : Value N) : Option Str :=
  if value.isPrimitive then some (value.convertToString lib) else none

/-- The position that an index names. -/
def integerIndex (value : Value N) : Option Nat :=
  let index := value.convertToNumber lib
  if lib.isNan index ∨ index < lib.zero then none
  else if lib.floor index > lib.maxIndex then none
  else some (lib.toUsize (lib.floor index))

/-- `ObjectValue::get` with the key of an index. -/
def entryAt (caseSensitive : Bool) (entries : List (Str × Value N)) (index : Value N) :
    Option (Value N) := do
  let key ← stringIndex lib index
  (entries.find? fun entry => sameKey lib.simpleUppercase caseSensitive entry.1 key).map Prod.snd

/-- The item at the position of an index. -/
def itemAt (items : List (Value N)) (index : Value N) : Option (Value N) := do
  items[← integerIndex lib index]?

/-- What one item of a filtered array brings to the result; no index is the
    wildcard. -/
def descend (index : Option (Value N)) : Value N → List (Value N)
  | .object _ caseSensitive entries =>
    index.elim (entries.map Prod.snd) fun index => (entryAt lib caseSensitive entries index).toList
  | .array _ _ items => index.elim items fun index => (itemAt lib items index).toList
  | _ => []

/-- An index into a value; no index is the wildcard. -/
def evaluateIndex (target : RunM (Value N)) (index : Option (RunM (Value N))) : RunM (Value N) := do
  match ← target with
  | .array _ isFiltered items =>
    let index ← index.mapM id
    if isFiltered then filtered (items.flatMap (descend lib index))
    else index.elim (filtered items) fun index => return (itemAt lib items index).getD .null
  | .object _ caseSensitive entries =>
    (← index.mapM id).elim (filtered (entries.map Prod.snd)) fun index =>
      return (entryAt lib caseSensitive entries index).getD .null
  | _ => if index.isNone then filtered [] else return .null

/-! ## JSON -/

/-- What stands in front of a value in a JSON text. -/
inductive JsonPrefix where
  | root | mappingValue | element (first : Bool)

/-- The blanks in front of a line. -/
def indentation (level : Nat) : Str := List.replicate (2 * level) ' '

/-- The prefix as it is written. -/
def JsonPrefix.text (level : Nat) : JsonPrefix → Str
  | root => []
  | mappingValue => ": "
  | element first => (if first then [] else [',']) ++ '\n' :: indentation level

mutual

/-- `write_json`, with the prefix already written. -/
def writeJson (level : Nat) : Value N → Str
  | .null => "null"
  | .boolean value => if value then "true" else "false"
  | .number value => lib.formatNumber value
  | .string value => lib.jsonString value
  | .array _ _ items =>
    if items.isEmpty then "[]"
    else '[' :: writeItems (level + 1) true items ++ '\n' :: indentation level ++ [']']
  | .object _ _ entries =>
    if entries.isEmpty then "\x7b\x7d"
    else '\x7b' :: writeEntries (level + 1) true entries ++ '\n' :: indentation level ++ ['\x7d']

def writeItems (level : Nat) (first : Bool) : List (Value N) → Str
  | [] => []
  | item :: items =>
    (JsonPrefix.element first).text level ++ writeJson level item ++ writeItems level false items

def writeEntries (level : Nat) (first : Bool) : List (Str × Value N) → Str
  | [] => []
  | (key, entry) :: entries =>
    (JsonPrefix.element first).text level ++ lib.jsonString key
      ++ JsonPrefix.mappingValue.text level ++ writeJson level entry
      ++ writeEntries level false entries

end

/-- `toJson` of a value. -/
def toJson (value : Value N) : Str := writeJson lib 0 value

mutual

/-- The value of a JSON document, arrays and objects new. -/
def fromSerdeJson : Document N → StateM Nat (Value N)
  | .null => return .null
  | .bool value => return .boolean value
  | .number value => return .number value
  | .string value => return .string value
  | .array items => do
    let items ← itemsFromSerdeJson items
    return .array (← allocate) false items
  | .object entries => do
    let entries ← entriesFromSerdeJson entries
    return .object (← allocate) false entries

def itemsFromSerdeJson : List (Document N) → StateM Nat (List (Value N))
  | [] => return []
  | item :: items => do return (← fromSerdeJson item) :: (← itemsFromSerdeJson items)

def entriesFromSerdeJson : List (Str × Document N) → StateM Nat (List (Str × Value N))
  | [] => return []
  | (key, value) :: entries => do
    return (key, ← fromSerdeJson value) :: (← entriesFromSerdeJson entries)

end

/-- `fromJson` of a text. -/
def fromJson (json : Str) : RunM (Value N) :=
  match lib.fromStr json with
  | .error error => evaluationError ("Unable to parse JSON: " ++ error)
  | .ok document => onHeap (fromSerdeJson document)

/-! ## Functions -/

section

variable (args : List (RunM (Value N)))

/-- The argument at a position; the arity was checked before. -/
def argument (index : Nat) : RunM (Value N) :=
  args[index]?.getD (throw .panic)

/-- The loop of `case` over predicates and results. -/
def caseArguments : List (RunM (Value N)) → RunM (Value N)
  | [] => throw .panic
  | [otherwise] => otherwise
  | predicate :: result :: args => do
    match ← predicate with
    | .boolean matched => if matched then result else caseArguments args
    | _ => evaluationError "case predicate must evaluate to a boolean value"

/-- `case`. -/
def evaluateCase : RunM (Value N) :=
  if args.length % 2 = 0 then evaluationError "case requires an odd number of arguments"
  else caseArguments args

/-- `contains`: a text in a text, or an item of an array. -/
def evaluateContains : RunM (Value N) := do
  let left ← argument args 0
  if left.isPrimitive then
    let right ← argument args 1
    return .boolean (right.isPrimitive && ordinalIgnoreCaseContains lib.simpleUppercase
      (left.convertToString lib) (right.convertToString lib))
  else
    match left with
    | .array _ _ (item :: items) =>
      let right ← argument args 1
      return .boolean ((item :: items).any (right.abstractEqual lib))
    | _ => return .boolean false

/-- `startsWith` and `endsWith`: both operands must be primitives. -/
def evaluateAffix (test : Str → Str → Bool) (args : List (RunM (Value N))) : RunM (Value N) := do
  let left ← argument args 0
  if left.isPrimitive then
    let right ← argument args 1
    return .boolean (right.isPrimitive
      && test (left.convertToString lib) (right.convertToString lib))
  else return .boolean false

/-- `format`. -/
def evaluateFormat : RunM (Value N) := do
  let format := (← argument args 0).convertToString lib
  return .string (← Formatting.formatTemplate
    ⟨lib, format, args.length - 1, fun index => argument args (index + 1)⟩)

/-- `join`: the separator is only run when it is needed. -/
def evaluateJoin : RunM (Value N) := do
  match ← argument args 0 with
  | .array _ _ (item :: items) =>
    let separator ←
      if 1 < args.length ∧ 1 < (item :: items).length then do
        let separator ← argument args 1
        pure (if separator.isPrimitive then separator.convertToString lib else [','])
      else pure [',']
    return .string (separator.intercalate ((item :: items).map (Value.convertToString lib)))
  | items => return .string (if items.isPrimitive then items.convertToString lib else [])

end

variable (context : EvaluationContext N)

/-- A well-known function, or one of the runner. -/
def evaluateFunction (name : Str) (args : List (RunM (Value N))) : RunM (Value N) :=
  if name = "case" then evaluateCase args
  else if name = "contains" then evaluateContains lib args
  else if name = "startsWith" then
    evaluateAffix lib (ordinalIgnoreCaseStartsWith lib.simpleUppercase) args
  else if name = "endsWith" then
    evaluateAffix lib (ordinalIgnoreCaseEndsWith lib.simpleUppercase) args
  else if name = "format" then evaluateFormat lib args
  else if name = "join" then evaluateJoin lib args
  else if name = "toJson" then do return .string (toJson lib (← argument args 0))
  else if name = "fromJson" then do
    fromJson lib ((← argument args 0).convertToString lib)
  else do MonadExcept.ofExcept (← onHeap (context.callFunction name (← args.mapM id)))

/-! ## Nodes -/

/-- The value of a literal. -/
def ofLiteral : Expression.Value → Value N
  | .null => .null
  | .boolean value => .boolean value
  | .number value => .number (lib.ofDouble value)
  | .string value => .string value

/-- The wildcard of an index. -/
def isWildcard : Node → Bool
  | .wildcard => true
  | _ => false

mutual

/-- The value of a node. -/
def evaluateNode : Node → RunM (Value N)
  | .literal value => do
    visit (.literal value)
    return ofLiteral lib value
  | .wildcard => do
    visit .wildcard
    return .string ['*']
  | .namedValue name => do
    visit (.namedValue name)
    onHeap (context.namedValue name)
  | .not inner => do
    visit (.not inner)
    return .boolean ((← evaluateNode inner).isFalsy lib)
  | .and nodes => shortCircuit (Value.isFalsy lib) .null (evaluateNodes nodes)
  | .or nodes => shortCircuit (Value.isTruthy lib) .null (evaluateNodes nodes)
  | .binary operator left right => do
    visit (.binary operator left right)
    let left ← evaluateNode left
    let right ← evaluateNode right
    return .boolean (compare lib operator left right)
  | .index target index => do
    visit (.index target index)
    evaluateIndex lib (evaluateNode target)
      (if isWildcard index then none else some (evaluateNode index))
  | .function name args => do
    visit (.function name args)
    evaluateFunction lib context name (evaluateNodes args)

/-- The computations of the nodes, none of them run. -/
def evaluateNodes : List Node → List (RunM (Value N))
  | [] => []
  | node :: nodes => evaluateNode node :: evaluateNodes nodes

end

end

end Velnor.Evaluation
