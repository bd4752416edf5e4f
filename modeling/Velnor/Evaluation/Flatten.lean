/-
  The parser joins directly nested `&&`, and directly nested `||`, to one node.
  The reference evaluator works on the tree where every operator is binary and
  left-associative, and returns an operand value.  Both run the same operands in
  the same order, to the same value or error.
-/
import Velnor.Evaluation.Evaluate
import Velnor.Expression.Complete

namespace Velnor.Evaluation

open Expression List

section

variable {N : Type} [Preorder N] [DecidableLE N] [DecidableLT N] (lib : Library N)
  (context : EvaluationContext N)

/-! ## The reference evaluator -/

mutual

def evaluateTree : Tree → RunM (Value N)
  | .literal value => do
    visit (.literal value)
    return ofLiteral lib value
  | .wildcard => do
    visit .wildcard
    return .string ['*']
  | .namedValue name => do
    visit (.namedValue name)
    onHeap (context.namedValue name)
  | .not inner => do
    visit (.not inner.merge)
    return .boolean ((← evaluateTree inner).isFalsy lib)
  | .binary .and left right => do
    let value ← evaluateTree left
    if value.isFalsy lib then return value else evaluateTree right
  | .binary .or left right => do
    let value ← evaluateTree left
    if value.isTruthy lib then return value else evaluateTree right
  | .binary (.compare operator) left right => do
    visit (.binary operator left.merge right.merge)
    let left ← evaluateTree left
    let right ← evaluateTree right
    return .boolean (compare lib operator left right)
  | .index target index => do
    visit (.index target.merge index.merge)
    evaluateIndex lib (evaluateTree target)
      (if isWildcard index.merge then none else some (evaluateTree index))
  | .call name args => do
    visit (.function name (mergeAll args))
    evaluateFunction lib context name (evaluateTrees args)

def evaluateTrees : List Tree → List (RunM (Value N))
  | [] => []
  | tree :: trees => evaluateTree tree :: evaluateTrees trees

end

/-! ## Operands of joined nodes -/

omit [Preorder N] [DecidableLE N] [DecidableLT N] in
theorem shortCircuit_append (stops : Value N → Bool) (result : Value N) (x : RunM (Value N))
    (xs ys : List (RunM (Value N))) :
    shortCircuit stops result (x :: xs ++ ys) = (do
      let value ← shortCircuit stops result (x :: xs)
      if stops value then return value else shortCircuit stops value ys) := by
  induction xs generalizing x result with
  | nil => simp [shortCircuit]
  | cons x' _ ih =>
    rw [cons_append, shortCircuit, shortCircuit, bind_assoc]
    congr 1
    funext value
    by_cases hstops : stops value = true
    · simp [hstops]
    · simp only [hstops]
      exact ih value x'

omit [Preorder N] [DecidableLE N] [DecidableLT N] in
theorem shortCircuit_singleton (stops : Value N → Bool) (result : Value N) (x : RunM (Value N)) :
    shortCircuit stops result [x] = x := by
  simp [shortCircuit]

theorem evaluateNodes_append (xs ys : List Node) :
    evaluateNodes lib context (xs ++ ys) =
      evaluateNodes lib context xs ++ evaluateNodes lib context ys := by
  induction xs with
  | nil => rfl
  | cons _ _ ih => simp [evaluateNodes, ih]

/-- The operands of two joined nodes run like those of the first, and then those
    of the second. -/
theorem shortCircuit_join (stops : Value N → Bool) {xs ys : List Node} (hxs : xs ≠ [])
    (hys : ys ≠ []) :
    shortCircuit stops .null (evaluateNodes lib context (xs ++ ys)) = (do
      let value ← shortCircuit stops .null (evaluateNodes lib context xs)
      if stops value then return value
      else shortCircuit stops .null (evaluateNodes lib context ys)) := by
  obtain ⟨_, _, rfl⟩ := exists_cons_of_ne_nil hxs
  obtain ⟨_, _, rfl⟩ := exists_cons_of_ne_nil hys
  rw [evaluateNodes_append]
  exact shortCircuit_append ..

theorem evaluate_conjuncts (node : Node) :
    shortCircuit (Value.isFalsy lib) .null (evaluateNodes lib context node.conjuncts) =
      evaluateNode lib context node := by
  cases node with
  | and => rfl
  | _ => exact shortCircuit_singleton ..

theorem evaluate_disjuncts (node : Node) :
    shortCircuit (Value.isTruthy lib) .null (evaluateNodes lib context node.disjuncts) =
      evaluateNode lib context node := by
  cases node with
  | or => rfl
  | _ => exact shortCircuit_singleton ..

theorem operands_merge_ne_nil (tree : Tree) :
    tree.merge.conjuncts ≠ [] ∧ tree.merge.disjuncts ≠ [] := by
  have hcons : ∀ node : Node, [node] ≠ [] := fun node => cons_ne_nil node []
  cases tree with
  | binary operator left =>
    obtain ⟨hand, hor⟩ := operands_merge_ne_nil left
    cases operator with
    | or => exact ⟨hcons _, append_ne_nil_of_left_ne_nil hor _⟩
    | and => exact ⟨append_ne_nil_of_left_ne_nil hand _, hcons _⟩
    | compare => exact ⟨hcons _, hcons _⟩
  | _ => exact ⟨hcons _, hcons _⟩

mutual

/-- A merged tree evaluates like the reference tree. -/
theorem evaluateNode_merge : (tree : Tree) →
    evaluateNode lib context tree.merge = evaluateTree lib context tree
  | .literal _ | .wildcard | .namedValue _ => rfl
  | .not inner => by
    rw [Tree.merge, evaluateNode, evaluateTree, evaluateNode_merge inner]
  | .binary .and left right => by
    rw [Tree.merge, Operator.join, evaluateNode, shortCircuit_join _ _ _
      (operands_merge_ne_nil left).1 (operands_merge_ne_nil right).1, evaluate_conjuncts,
      evaluate_conjuncts, evaluateNode_merge left, evaluateNode_merge right, evaluateTree]
  | .binary .or left right => by
    rw [Tree.merge, Operator.join, evaluateNode, shortCircuit_join _ _ _
      (operands_merge_ne_nil left).2 (operands_merge_ne_nil right).2, evaluate_disjuncts,
      evaluate_disjuncts, evaluateNode_merge left, evaluateNode_merge right, evaluateTree]
  | .binary (.compare operator) left right => by
    rw [Tree.merge, Operator.join, evaluateNode, evaluateTree, evaluateNode_merge left,
      evaluateNode_merge right]
  | .index target index => by
    rw [Tree.merge, evaluateNode, evaluateTree, evaluateNode_merge target, evaluateNode_merge index]
  | .call name args => by
    rw [Tree.merge, evaluateNode, evaluateTree, evaluateNodes_mergeAll args]

theorem evaluateNodes_mergeAll : (trees : List Tree) →
    evaluateNodes lib context (mergeAll trees) = evaluateTrees lib context trees
  | [] => rfl
  | tree :: trees => by
    rw [mergeAll, evaluateNodes, evaluateTrees, evaluateNode_merge tree,
      evaluateNodes_mergeAll trees]

end

/-- Every parsed node is the merged tree of the expression, and a merged tree
    has the same evaluation as the tree: the same value or error, and the same
    nodes evaluated in the same order. -/
theorem flattening_preserves_evaluation :
    (∀ tree : Tree, evaluateNode lib context tree.merge = evaluateTree lib context tree)
      ∧ ∀ expression node, parse expression context.toParseEnvironment = .ok (some node) →
          ∃ tree, Sentence context.toParseEnvironment expression tree ∧ node = tree.merge := by
  refine ⟨evaluateNode_merge lib context, fun expression node h => ?_⟩
  obtain ⟨-, -, hsome⟩ := (parse_endsWell context.toParseEnvironment expression).of_ok h
  obtain ⟨tree, hsentence, hnode, -⟩ := hsome node rfl
  exact ⟨tree, hsentence, hnode⟩

end

end Velnor.Evaluation
