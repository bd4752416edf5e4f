/-
  Trees that read nothing of the running job (expression/mod.rs).  Their
  evaluation at job setup does not depend on the contexts that the executor
  fills as steps run, nor on what the functions of the runner answer.

  Parsing is what keeps other functions out: the environments of the source
  register those of the runner only.
-/
import Velnor.Evaluation.Flatten

namespace Velnor.Evaluation

open Expression Text List

def runnerFunctions : List (Str × Nat × Nat) := [
  ("success", 0, 0),
  ("failure", 0, 0),
  ("always", 0, 0),
  ("cancelled", 0, 0),
  ("hashFiles", 1, 255)]

/-- `function_arity` of the runner's environments. -/
def runnerArity (name : Str) : Option (Nat × Nat) :=
  (runnerFunctions.find? fun known => eqIgnoreAsciiCase known.1 name).map Prod.snd

def isRuntimeContext (name : Str) : Bool :=
  toAsciiLowercase name ∈
    ["env".toList, "steps".toList, "job".toList, "jobs".toList, "runner".toList]

mutual

def readsRuntimeContext : Node → Bool
  | .namedValue name => isRuntimeContext name
  | .function name args =>
    runnerFunctions.any (fun known => eqIgnoreAsciiCase known.1 name) || readsAny args
  | .literal _ | .wildcard => false
  | .not inner => readsRuntimeContext inner
  | .index left right | .binary _ left right =>
    readsRuntimeContext left || readsRuntimeContext right
  | .and nodes | .or nodes => readsAny nodes

def readsAny : List Node → Bool
  | [] => false
  | node :: nodes => readsRuntimeContext node || readsAny nodes

end

theorem readsAny_append (xs ys : List Node) :
    readsAny (xs ++ ys) = (readsAny xs || readsAny ys) := by
  induction xs with
  | nil => rfl
  | cons _ _ ih => rw [cons_append, readsAny, readsAny, ih, Bool.or_assoc]

theorem reads_join (operator : Operator) (left right : Node) :
    readsRuntimeContext (operator.join left right) =
      (readsRuntimeContext left || readsRuntimeContext right) := by
  have hsingle : ∀ node, readsAny [node] = readsRuntimeContext node := fun node => by
    rw [readsAny, readsAny, Bool.or_false]
  have hconjuncts (node : Node) : readsAny node.conjuncts = readsRuntimeContext node := by
    cases node with
    | and => rfl
    | _ => exact hsingle _
  have hdisjuncts (node : Node) : readsAny node.disjuncts = readsRuntimeContext node := by
    cases node with
    | or => rfl
    | _ => exact hsingle _
  cases operator with
  | or => rw [Operator.join, readsRuntimeContext, readsAny_append, hdisjuncts, hdisjuncts]
  | and => rw [Operator.join, readsRuntimeContext, readsAny_append, hconjuncts, hconjuncts]
  | compare => rfl

section

variable {N : Type} [Preorder N] [DecidableLE N] [DecidableLT N] (lib : Library N)
  {first second : EvaluationContext N} {isNamedValue : Str → Bool}

omit [DecidableLT N] in
/-- A parsed function is a well-known one, or one of the runner. -/
theorem evaluateFunction_agrees (first second : EvaluationContext N) {name : Str} {count : Nat}
    {args : List Node} (h : TakesArguments ⟨isNamedValue, runnerArity⟩ name count)
    (hreads : readsRuntimeContext
      (.function (functionName ⟨isNamedValue, runnerArity⟩ name) args) = false) :
    evaluateFunction lib first (functionName ⟨isNamedValue, runnerArity⟩ name) =
      evaluateFunction lib second (functionName ⟨isNamedValue, runnerArity⟩ name) := by
  obtain ⟨_, _, _, hlookup, -⟩ := h
  rw [readsRuntimeContext, Bool.or_eq_false_iff] at hreads
  unfold functionName at hreads ⊢
  rw [hlookup] at hreads ⊢
  unfold lookupFunction at hlookup
  split at hlookup
  · rename_i _ hfind
    cases hlookup
    have hmem := mem_of_find?_eq_some hfind
    simp only [wellKnownFunctions, mem_cons, Prod.mk.injEq, not_mem_nil, or_false] at hmem
    funext args
    rcases hmem with ⟨rfl, -⟩ | ⟨rfl, -⟩ | ⟨rfl, -⟩ | ⟨rfl, -⟩ | ⟨rfl, -⟩ | ⟨rfl, -⟩ | ⟨rfl, -⟩
      | ⟨rfl, -⟩ <;> rfl
  · simp only [runnerArity, Option.map_map, Option.map_eq_some_iff] at hlookup
    obtain ⟨_, hfind, heq⟩ := hlookup
    cases heq
    have hany := any_eq_false.mp hreads.1 _ (mem_of_find?_eq_some hfind)
    exact absurd (find?_some hfind) hany

/-- The trees of the form evaluate alike in both contexts unless one of them
    reads the running job. -/
def Alike (first second : EvaluationContext N) : Form → Prop
  | .phrase _ _ tree => readsRuntimeContext tree.merge = false →
      evaluateTree lib first tree = evaluateTree lib second tree
  | .leading args => readsAny (mergeAll args) = false →
      evaluateTrees lib first args = evaluateTrees lib second args

theorem evaluateTrees_append (context : EvaluationContext N) (args : List Tree) (arg : Tree) :
    evaluateTrees lib context (args ++ [arg]) =
      evaluateTrees lib context args ++ [evaluateTree lib context arg] := by
  induction args with
  | nil => rfl
  | cons _ _ ih => rw [cons_append, evaluateTrees, ih, evaluateTrees, cons_append]

theorem Alike.snoc {level : Level} {star : Bool} {args : List Tree} {arg : Tree}
    (hargs : Alike lib first second (.leading args))
    (harg : Alike lib first second (.phrase level star arg)) :
    Alike lib first second (.leading (args ++ [arg])) := by
  intro hreads
  rw [mergeAll_eq_map, map_append, readsAny_append, ← mergeAll_eq_map,
    Bool.or_eq_false_iff] at hreads
  rw [evaluateTrees_append, evaluateTrees_append, hargs hreads.1,
    harg (by simpa [readsAny] using hreads.2)]

theorem derives_alike (hcontexts : ∀ name, isRuntimeContext name = false →
      first.namedValue name = second.namedValue name)
    {form : Form} {s rest : Str} (h : Derives ⟨isNamedValue, runnerArity⟩ form s rest) :
    Alike lib first second form := by
  induction h with
  | lift _ _ ih | group _ _ _ ih => exact ih
  | @binary operator _ _ _ _ _ _ _ _ _ _ ihl ihr =>
    intro hreads
    rw [Tree.merge, reads_join, Bool.or_eq_false_iff] at hreads
    cases operator <;> rw [evaluateTree, evaluateTree, ihl hreads.1, ihr hreads.2]
  | not _ _ ih =>
    intro hreads
    rw [evaluateTree, evaluateTree, ih hreads]
  | literal | wildcard => exact fun _ => rfl
  | namedValue =>
    intro hreads
    rw [evaluateTree, evaluateTree, hcontexts _ hreads]
  | property _ _ _ ih | everyProperty _ _ _ ih =>
    intro hreads
    rw [Tree.merge, readsRuntimeContext, Bool.or_eq_false_iff] at hreads
    rw [evaluateTree, evaluateTree, ih hreads.1]
    rfl
  | index _ _ _ _ iht ihi =>
    intro hreads
    rw [Tree.merge, readsRuntimeContext, Bool.or_eq_false_iff] at hreads
    rw [evaluateTree, evaluateTree, iht hreads.1, ihi hreads.2]
  | emptyCall _ _ hcount =>
    intro hreads
    rw [evaluateTree, evaluateTree, evaluateFunction_agrees lib first second hcount hreads]
    rfl
  | call _ _ _ _ hcount ihargs iharg =>
    intro hreads
    rw [evaluateTree, evaluateTree, evaluateFunction_agrees lib first second hcount hreads,
      Alike.snoc lib ihargs iharg (Bool.or_eq_false_iff.mp hreads).2]
  | none => exact fun _ => rfl
  | comma _ _ _ ihargs iharg => exact ihargs.snoc lib iharg

/-- A parsed tree that reads nothing of the running job has the same evaluation
    in two contexts that agree on the other root contexts. -/
theorem setup_evaluation_agrees {expression : Str} {node : Node}
    (hcontexts : ∀ name, isRuntimeContext name = false →
      first.namedValue name = second.namedValue name)
    (hparse : parse expression ⟨isNamedValue, runnerArity⟩ = .ok (some node))
    (hreads : readsRuntimeContext node = false) :
    evaluateNode lib first node = evaluateNode lib second node := by
  obtain ⟨-, -, hsome⟩ := (parse_endsWell _ expression).of_ok hparse
  obtain ⟨_, ⟨_, hderives, -⟩, rfl, -⟩ := hsome node rfl
  rw [evaluateNode_merge, evaluateNode_merge]
  exact derives_alike lib hcontexts hderives hreads

/-- Whichever derivation within the depth limit the grammar has for an accepted
    expression, its reference evaluation is that of what the parser returned. -/
theorem evaluate_parsed (context : EvaluationContext N) {expression : Str} {node : Node}
    {tree : Tree} (hparse : parse expression context.toParseEnvironment = .ok (some node))
    (hsentence : Sentence context.toParseEnvironment expression tree)
    (hdepth : tree.merge.depth ≤ maxDepth) :
    evaluateNode lib context node = evaluateTree lib context tree := by
  have hlength := ((parse_endsWell _ expression).of_ok hparse).1
  cases hparse.symm.trans (parse_sentence hlength hsentence hdepth)
  exact evaluateNode_merge lib context tree

end

/-- Numbers of a single value. -/
def trivialLibrary : Library Unit :=
  ⟨(), (), (), fun _ => true, fun _ => (), fun _ => (), fun _ => [], id, (), fun _ => 0, id, id,
    fun _ => .error []⟩

/-- The running job has the value in its contexts and its functions, and
    everything else is null. -/
def runningJob (value : Value Unit) : EvaluationContext Unit :=
  ⟨⟨fun _ => true, runnerArity⟩,
    fun name => pure (if isRuntimeContext name then value else .null), fun _ _ => pure (.ok value)⟩

/-- An operator, a property, an index and a call, as in the condition of a step. -/
def guardText : Str := "github.a && contains(github['b'], 'v')"

def guardTree : Tree :=
  .binary .and (.index (.namedValue "github") (.literal (.string "a")))
    (.call "contains" [.index (.namedValue "github") (.literal (.string "b")),
      .literal (.string "v")])

theorem sentence_guard : Sentence ⟨fun _ => true, runnerArity⟩ guardText guardTree := by
  have hgithub : ∀ {star : Bool} {s : Str} {c : Char} {rest : Str},
      trimStart s = "github" ++ c :: rest → c = '.' ∨ c = '[' →
      Derives ⟨fun _ => true, runnerArity⟩ (.phrase .primary star (.namedValue "github"))
        s (c :: rest) := by
    intro star s c rest hs hc
    refine .namedValue ⟨hs, by decide, ?_⟩ (by decide) ?_ rfl
    · rcases hc with rfl | rfl <;> (rintro _ ⟨⟩; rfl)
    · rcases hc with rfl | rfl <;> exact nofun
  have hboundary : ∀ {word s : Str} {c : Char} {rest : Str},
      trimStart s = word ++ c :: rest → isLegalKeyword word = true → isTokenBoundary c = true →
      Word word s (c :: rest) := by
    intro _ _ _ _ hs hlegal hc
    exact ⟨hs, hlegal, by rintro _ ⟨⟩; exact hc⟩
  have hproperty : Derives ⟨fun _ => true, runnerArity⟩ (.phrase .and false
      (.index (.namedValue "github") (.literal (.string "a")))) guardText
      " && contains(github['b'], 'v')" :=
    .lift (by decide) (.property (hgithub rfl (.inl rfl)) rfl (hboundary rfl rfl rfl))
  have hindex : Derives ⟨fun _ => true, runnerArity⟩
      (.leading [.index (.namedValue "github") (.literal (.string "b"))])
      "github['b'], 'v')" " 'v')" :=
    @Derives.comma _ [] _ _ _ _ _ .none (.lift (by decide) (.index (hgithub rfl (.inr rfl)) rfl
      (.lift (by decide) (.literal (.string rfl (by decide)))) rfl)) rfl
  have hhead : CallHead "contains" " contains(github['b'], 'v')" "github['b'], 'v')" :=
    ⟨rfl, _, hboundary rfl rfl rfl, rfl⟩
  have hcount : TakesArguments ⟨fun _ => true, runnerArity⟩ "contains" 2 :=
    ⟨"contains", 2, 2, rfl, by decide, by decide, by decide⟩
  have hcall : Derives ⟨fun _ => true, runnerArity⟩ (.phrase .equality false
      (.call "contains" [.index (.namedValue "github") (.literal (.string "b")),
        .literal (.string "v")])) " contains(github['b'], 'v')" [] :=
    .lift (by decide) (.call hhead hindex
      (.lift (by decide) (.literal (.string rfl (by decide)))) rfl hcount)
  have hboth := @Derives.binary _ .and _ _ _ _ _ _ _ hproperty ⟨rfl, by decide⟩ hcall
  exact ⟨[], .lift (by decide) hboth, rfl⟩

theorem setup_evaluation_agrees_guard :
    evaluateNode trivialLibrary (runningJob .null) guardTree.merge =
      evaluateNode trivialLibrary (runningJob (.boolean true)) guardTree.merge :=
  setup_evaluation_agrees trivialLibrary (fun name h => by simp [runningJob, h])
    (parse_sentence (by decide) sentence_guard (by decide)) (by decide)

theorem evaluate_parsed_guard :
    evaluateNode trivialLibrary (runningJob .null) guardTree.merge =
      evaluateTree trivialLibrary (runningJob .null) guardTree :=
  evaluate_parsed trivialLibrary (runningJob .null)
    (parse_sentence (by decide) sentence_guard (by decide)) sentence_guard (by decide)

end Velnor.Evaluation
