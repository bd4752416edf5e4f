/-
  What the parser's stack operations do, in the terms of the grammar: the
  operator a flush takes off and the node it puts there, where a flush stops,
  and the arity checks of a call.
-/
import Velnor.Expression.Lexemes

namespace Velnor.Expression

open Text Relational List

/-! ## Levels and precedences -/

instance (a b : Level) : Decidable (a ≤ b) := inferInstanceAs (Decidable (a.rank ≤ b.rank))

instance : Preorder Level where
  le_refl a := Nat.le_refl a.rank
  le_trans _ _ _ := Nat.le_trans

variable (operator : Operator) (level : Level)

theorem Level.or_le : .or ≤ level := Nat.zero_le level.rank

theorem Level.le_primary : level ≤ .primary := by cases level <;> decide

def Level.precedence : Level → Nat
  | or => 5
  | and => 6
  | equality => 10
  | relational => 11
  | not => 16
  | operand | primary => 19

theorem Operator.rightLevel_le_iff : operator.rightLevel ≤ level ↔ ¬ level ≤ operator.level := by
  cases operator with
  | compare comparison => cases comparison <;> cases level <;> decide
  | _ => cases level <;> decide

theorem Operator.level_le_rightLevel : operator.level ≤ operator.rightLevel := by
  cases operator with
  | compare comparison => cases comparison <;> decide
  | _ => decide

theorem Operator.rightLevel_le_not : operator.rightLevel ≤ .not := by
  cases operator with
  | compare comparison => cases comparison <;> decide
  | _ => decide

/-- A flush for the precedence `n` takes off the operators of the level `level`
    and of those that bind tighter. -/
structure Threshold (n : Nat) (level : Level) : Prop where
  operator (operator : Operator) : n ≤ operator.level.precedence ↔ level ≤ operator.level
  not : n ≤ Level.precedence .not ↔ level ≤ .not
  primary : n ≤ Level.precedence .primary

theorem Threshold.of_level : Threshold level.precedence level where
  operator operator := by
    cases operator with
    | compare comparison => cases comparison <;> cases level <;> decide
    | _ => cases level <;> decide
  not := by cases level <;> decide
  primary := by cases level <;> decide

/-- The precedence of a separator or of a closing bracket. -/
theorem Threshold.close : Threshold 1 .or where
  operator operator := by
    cases operator with
    | compare comparison => cases comparison <;> decide
    | _ => decide
  not := by decide
  primary := by decide

/-! ## Tokens -/

section
variable {token : Token}

theorem Token.Is.exists_eq {lexeme : Lexeme} {text : Str} (h : token.Is lexeme)
    (htext : lexeme.text = some text) :
    ∃ index value, token = ⟨lexeme.kind, text, index, value⟩ := by
  obtain ⟨kind, raw, index, value⟩ := token
  obtain rfl : kind = lexeme.kind := h.kind
  obtain rfl : raw = text := h.text text htext
  exact ⟨index, value, rfl⟩

theorem Token.Is.operator_precedence {operator : Operator} (h : token.Is (.operator operator)) :
    token.precedence = operator.level.precedence := by
  obtain ⟨_, _, rfl⟩ := h.exists_eq rfl
  cases operator with
  | compare comparison => cases comparison <;> rfl
  | _ => rfl

theorem Token.Is.not_precedence (h : token.Is .not) : token.precedence = Level.precedence .not := by
  obtain ⟨_, _, rfl⟩ := h.exists_eq rfl
  rfl

end

/-! ## Popping -/

section
variable {expression : Str} {env : ParseEnvironment} {last : Option TokenKind}
  {token : Token} {operands : List Node} {operators : List Token}

theorem popOperands_reverse (expression : Str) (popped below : List Node) :
    popOperands expression popped.length (popped.reverse ++ below) = .ok (popped, below) := by
  induction popped using reverseRecOn with
  | nil => rfl
  | append_singleton popped top ih =>
    rw [length_append, reverse_append]
    show (popOperands expression popped.length (popped.reverse ++ below) >>= fun popped =>
      Except.ok (popped.1 ++ [top], popped.2)) = _
    rw [ih]
    rfl

theorem popOperator_of_kind {expected : TokenKind} (h : token.kind = expected) :
    popOperator expression expected (token :: operators) = .ok (token, operators) :=
  popOperator_eq_ok.mpr ⟨rfl, h⟩

variable {operator} (node : Node) {separators : List Token}

theorem mergedOperands_true : mergedOperands true node = node.conjuncts := by
  cases node <;> rfl

theorem mergedOperands_false : mergedOperands false node = node.disjuncts := by
  cases node <;> rfl

/-! ## Flushing one operator -/

theorem flushTopOperator_operator (h : token.Is (.operator operator)) (left right : Node) :
    flushTopOperator expression env last ⟨right :: left :: operands, token :: operators⟩
      = .ok ⟨operator.join left right :: operands, operators⟩ := by
  obtain ⟨_, _, rfl⟩ := h.exists_eq rfl
  cases operator with
  | or =>
    show Except.ok (Stacks.mk (.or (mergedOperands false left ++ (mergedOperands false right ++ []))
      :: operands) operators) = _
    rw [append_nil, mergedOperands_false, mergedOperands_false]
    rfl
  | and =>
    show Except.ok (Stacks.mk (.and (mergedOperands true left ++ (mergedOperands true right ++ []))
      :: operands) operators) = _
    rw [append_nil, mergedOperands_true, mergedOperands_true]
    rfl
  | compare comparison => cases comparison <;> rfl

variable {start : Token} {n : Nat} {name : Str}

theorem flushTopOperator_endGroup (h : token.kind = .endGroup) (hstart : start.kind = .startGroup) :
    flushTopOperator expression env last ⟨operands, token :: start :: operators⟩
      = .ok ⟨operands, operators⟩ := by
  unfold flushTopOperator
  dsimp only
  rw [h, popOperator_of_kind h, ok_bind, popOperator_of_kind hstart]
  rfl

theorem flushTopOperator_endIndex (h : token.kind = .endIndex) (hstart : start.kind = .startIndex)
    (left right : Node) :
    flushTopOperator expression env last ⟨right :: left :: operands, token :: start :: operators⟩
      = .ok ⟨.index left right :: operands, operators⟩ := by
  unfold flushTopOperator
  dsimp only
  rw [h]
  unfold flushTopEndIndex
  rw [popOperator_of_kind h, ok_bind]
  obtain ⟨kind, _, _, _⟩ := start
  obtain rfl : kind = .startIndex := hstart
  rfl

/-- A call that is closed right behind its opening token. -/
theorem flushTopOperator_emptyCall (h : token.kind = .endParameters)
    (hstart : start.kind = .startParameters) (name : Str) :
    flushTopOperator expression env (some .startParameters)
        ⟨.function name [] :: operands, token :: start :: operators⟩
      = checkArity expression env start name 0 >>= fun _ =>
          .ok ⟨.function name [] :: operands, operators⟩ := by
  unfold flushTopOperator
  dsimp only
  rw [h]
  unfold flushTopEndParameters
  rw [popOperator_of_kind h, ok_bind]
  show (popOperator expression .startParameters (start :: operators) >>= _) = _
  rw [popOperator_of_kind hstart, ok_bind]
  rfl

/-- A call with its arguments on the operand stack and a separator between each
    two of them on the operator stack. -/
theorem flushTopOperator_call {args : List Node} (hlast : last ≠ some .startParameters)
    (h : token.kind = .endParameters) (hstart : start.kind = .startParameters)
    (hseparators : ∀ separator ∈ separators, separator.kind = .separator)
    (hlength : args.length = 1 + separators.length) (name : Str) :
    flushTopOperator expression env last
        ⟨args.reverse ++ .function name [] :: operands, token :: (separators ++ start :: operators)⟩
      = checkArity expression env start name args.length >>= fun _ =>
          .ok ⟨.function name args :: operands, operators⟩ := by
  have hrun : ∀ separator ∈ separators, decide (separator.kind = .separator) = true :=
    fun separator hmem => decide_eq_true (hseparators separator hmem)
  have hstop : ∀ token ∈ (start :: operators).head?,
      decide (token.kind = .separator) = false := by
    rintro _ ⟨⟩
    rw [hstart]
    rfl
  unfold flushTopOperator
  dsimp only
  rw [h]
  unfold flushTopEndParameters popParameters
  rw [popOperator_of_kind h, ok_bind]
  dsimp only
  rw [if_neg hlast, takeWhile_append_stop hrun hstop, dropWhile_append_of_pos hrun,
    dropWhile_eq_self hstop, ← hlength, popOperands_reverse]
  show (popOperator expression .startParameters (start :: operators) >>= _) = _
  rw [popOperator_of_kind hstart, ok_bind]
  rfl

/-! ## Flushing while -/

/-- The operators on the stack keep a flush for the precedence from going on. -/
def Stops (n : Nat) (operators : List Token) : Prop :=
  ∀ top ∈ operators.head?, n ≤ top.precedence → top.kind ∈ barriers

theorem flushWhile_stops (h : Stops n operators) :
    flushWhile expression env last n ⟨operands, operators⟩ = .ok ⟨operands, operators⟩ := by
  unfold flushWhile
  cases operators with
  | nil => rfl
  | cons top =>
    dsimp only
    rw [if_neg]
    rintro ⟨hn, hbarrier⟩
    exact hbarrier (h top rfl hn)

theorem flushWhile_step {flushed : Stacks} (hn : n ≤ token.precedence)
    (hbarrier : token.kind ∉ barriers)
    (hflush : flushTopOperator expression env last ⟨operands, token :: operators⟩ = .ok flushed) :
    flushWhile expression env last n ⟨operands, token :: operators⟩
      = flushWhile expression env last n flushed := by
  conv_lhs => unfold flushWhile
  rw [if_pos ⟨hn, hbarrier⟩]
  split
  · rename_i hstop
    rw [hflush] at hstop
    cases hstop
  · rename_i hstacks
    rw [hflush] at hstacks
    cases hstacks
    rfl

section
variable {level} (hn : Threshold n level)

include hn

theorem flushWhile_operator {operator : Operator} (h : token.Is (.operator operator))
    (hle : level ≤ operator.level) (left right : Node) :
    flushWhile expression env last n ⟨right :: left :: operands, token :: operators⟩
      = flushWhile expression env last n ⟨operator.join left right :: operands, operators⟩ := by
  refine flushWhile_step ?_ ?_ (flushTopOperator_operator h left right)
  · rw [h.operator_precedence]
    exact (hn.operator operator).mpr hle
  · have hkind : token.kind = .logicalOperator := h.kind
    rw [hkind]
    decide

theorem flushWhile_not (h : token.Is .not) (hle : level ≤ .not) (inner : Node) :
    flushWhile expression env last n ⟨inner :: operands, token :: operators⟩
      = flushWhile expression env last n ⟨.not inner :: operands, operators⟩ := by
  obtain ⟨_, _, rfl⟩ := h.exists_eq rfl
  refine flushWhile_step ?_ ?_ rfl
  · rw [h.not_precedence]
    exact hn.not.mpr hle
  · rw [h.kind]
    decide

theorem flushWhile_dereference (h : token.kind = .dereference) (left right : Node) :
    flushWhile expression env last n ⟨right :: left :: operands, token :: operators⟩
      = flushWhile expression env last n ⟨.index left right :: operands, operators⟩ := by
  obtain ⟨kind, _, _, _⟩ := token
  obtain rfl : kind = .dereference := h
  have hbarrier : TokenKind.dereference ∉ barriers := by decide
  exact flushWhile_step hn.primary hbarrier rfl

theorem stops_operator {operator : Operator} (h : token.Is (.operator operator))
    (hle : ¬ level ≤ operator.level) : Stops n (token :: operators) := by
  rintro _ ⟨⟩ hprecedence
  rw [h.operator_precedence] at hprecedence
  exact absurd ((hn.operator operator).mp hprecedence) hle

theorem stops_not (h : token.Is .not) (hle : ¬ level ≤ .not) : Stops n (token :: operators) := by
  rintro _ ⟨⟩ hprecedence
  rw [h.not_precedence] at hprecedence
  exact absurd (hn.not.mp hprecedence) hle

end

theorem stops_barrier (h : token.kind ∈ barriers) : Stops n (token :: operators) := by
  rintro _ ⟨⟩ -
  exact h

/-- The separators of a call and its opening bracket. -/
theorem stops_call (hseparators : ∀ separator ∈ separators, separator.kind = .separator)
    (h : token.kind = .startParameters) : Stops n (separators ++ token :: operators) := by
  cases separators with
  | nil => exact stops_barrier (by rw [h]; decide)
  | cons separator =>
    exact stops_barrier (by rw [hseparators separator mem_cons_self]; decide)

/-- A flush that took every operator off is a flush of all. -/
theorem flushAll_of_flushWhile {stack flushed : Stacks}
    (h : flushWhile expression env last n stack = .ok flushed) (hnil : flushed.operators = []) :
    flushAll expression env last stack = .ok flushed := by
  fun_induction flushWhile expression env last n stack with
  | case1 =>
    cases h
    unfold flushAll
    rw [hnil]
  | case2 => cases h
  | case3 _ _ _ hstacks _ _ hnext ih =>
    unfold flushAll
    rw [hstacks]
    dsimp only
    split
    · rename_i _ hstop
      rw [hnext] at hstop
      cases hstop
    · rename_i hstacks'
      rw [hnext] at hstacks'
      cases hstacks'
      exact ih h
  | case4 _ _ _ hstacks =>
    cases h
    rw [hstacks] at hnil
    cases hnil

/-! ## Pushing a token -/

variable {stack : Stacks}

theorem pushToken_operator (h : token.Is (.operator operator)) :
    pushToken expression env last token stack
      = flushWhile expression env last operator.level.precedence stack >>= fun flushed =>
          .ok ⟨flushed.operands, token :: flushed.operators⟩ := by
  obtain ⟨_, _, rfl⟩ := h.exists_eq rfl
  cases operator with
  | compare comparison => cases comparison <;> rfl
  | _ => rfl

/-- The opening bracket of an index or of parameters, or a dereference. -/
theorem pushToken_tight (h : token.kind ∈ [.startIndex, .startParameters, .dereference]) :
    pushToken expression env last token stack
      = flushWhile expression env last (Level.precedence .primary) stack >>= fun flushed =>
          .ok ⟨flushed.operands, token :: flushed.operators⟩ := by
  obtain ⟨_, _, _, _⟩ := token
  simp only [mem_cons, not_mem_nil, or_false] at h
  rcases h with rfl | rfl | rfl <;> rfl

theorem pushToken_separator (h : token.kind = .separator) :
    pushToken expression env last token stack
      = flushWhile expression env last 1 stack >>= fun flushed =>
          .ok ⟨flushed.operands, token :: flushed.operators⟩ := by
  obtain ⟨kind, _, _, _⟩ := token
  obtain rfl : kind = .separator := h
  rfl

theorem pushToken_close (h : token.kind ∈ [.endGroup, .endIndex, .endParameters]) :
    pushToken expression env last token stack
      = flushWhile expression env last 1 stack >>= fun flushed =>
          flushTopOperator expression env last ⟨flushed.operands, token :: flushed.operators⟩ := by
  obtain ⟨_, _, _, _⟩ := token
  simp only [mem_cons, not_mem_nil, or_false] at h
  rcases h with rfl | rfl | rfl <;> rfl

theorem pushToken_startGroup (h : token.kind = .startGroup) :
    pushToken expression env last token stack = .ok ⟨stack.operands, token :: stack.operators⟩ := by
  obtain ⟨kind, _, _, _⟩ := token
  obtain rfl : kind = .startGroup := h
  rfl

theorem pushToken_not (h : token.Is .not) :
    pushToken expression env last token stack = .ok ⟨stack.operands, token :: stack.operators⟩ := by
  obtain ⟨_, _, rfl⟩ := h.exists_eq rfl
  rfl

theorem pushToken_literal {value : Value} (h : token.Is (.literal value)) :
    pushToken expression env last token stack
      = .ok ⟨.literal value :: stack.operands, stack.operators⟩ := by
  obtain ⟨kind, _, _, parsed⟩ := token
  obtain ⟨hkind, -, hvalue⟩ := h
  obtain rfl : kind = value.kind := hkind
  obtain rfl : parsed = some value := hvalue _ rfl
  cases value <;> rfl

theorem pushToken_propertyName (h : token.Is (.propertyName name)) :
    pushToken expression env last token stack
      = .ok ⟨.literal (.string name) :: stack.operands, stack.operators⟩ := by
  obtain ⟨_, _, rfl⟩ := h.exists_eq rfl
  rfl

theorem pushToken_wildcard (h : token.Is .wildcard) :
    pushToken expression env last token stack
      = .ok ⟨.wildcard :: stack.operands, stack.operators⟩ := by
  obtain ⟨kind, _, _, _⟩ := token
  obtain rfl : kind = .wildcard := h.kind
  rfl

theorem pushToken_namedValue (h : token.Is (.namedValue name)) :
    pushToken expression env last token stack
      = if env.isNamedValue name = true then
          .ok ⟨.namedValue name :: stack.operands, stack.operators⟩
        else .error (.error (.withToken .unrecognizedNamedValue token expression)) := by
  obtain ⟨_, _, rfl⟩ := h.exists_eq rfl
  show (if env.isNamedValue name = false then _ else _) = _
  cases env.isNamedValue name <;> rfl

theorem pushToken_function (h : token.Is (.function name)) :
    pushToken expression env last token stack
      = if (lookupFunction env name).isSome = true then
          .ok ⟨.function (functionName env name) [] :: stack.operands, stack.operators⟩
        else .error (.error (.withToken .unrecognizedFunction token expression)) := by
  obtain ⟨index, value, rfl⟩ := h.exists_eq rfl
  show pushOperand expression env ⟨.function, name, index, value⟩ stack = _
  unfold functionName pushOperand
  cases lookupFunction env name <;> rfl

end

/-! ## Arity -/

section
variable {env : ParseEnvironment} {name : Str}

/-- A function is found again under the name it is kept with. -/
theorem functionName_spec (env : ParseEnvironment) (name : Str) :
    lookupFunction env (functionName env name) = lookupFunction env name
      ∧ ∀ other, eqIgnoreAsciiCase (functionName env name) other
        = eqIgnoreAsciiCase name other := by
  cases hfind : wellKnownFunctions.find? fun known => eqIgnoreAsciiCase known.1 name with
  | none =>
    have hname : functionName env name = name := by
      unfold functionName lookupFunction
      rw [hfind]
      cases env.functionArity name <;> rfl
    rw [hname]
    exact ⟨rfl, fun _ => rfl⟩
  | some known =>
    have hlookup : lookupFunction env name = some known := by
      unfold lookupFunction
      rw [hfind]
    have hnonempty : known.1 ≠ [] := by
      have hall : wellKnownFunctions.all (fun known => decide (known.1 ≠ [])) = true := by decide
      exact of_decide_eq_true (all_eq_true.mp hall known (mem_of_find?_eq_some hfind))
    have hname : functionName env name = known.1 := by
      unfold functionName
      rw [hlookup]
      exact if_neg hnonempty
    have hmatch := find?_some hfind
    have hsame : toAsciiLowercase known.1 = toAsciiLowercase name := eqIgnoreAsciiCase_iff.mp hmatch
    rw [hname]
    constructor
    · unfold lookupFunction
      simp only [eqIgnoreAsciiCase, hsame]
      simp only [eqIgnoreAsciiCase] at hfind
      rw [hfind]
    · intro _
      simp only [eqIgnoreAsciiCase, hsame]

variable {count : Nat} {start : Token} {expression : Str}

theorem checkArity_eq_ok_iff (hknown : (lookupFunction env name).isSome = true) :
    checkArity expression env start (functionName env name) count = .ok ()
      ↔ TakesArguments env name count := by
  obtain ⟨hlookup, hcase⟩ := functionName_spec env name
  unfold checkArity TakesArguments
  rw [hlookup, hcase]
  cases hfound : lookupFunction env name with
  | none => simp [hfound] at hknown
  | some found =>
    obtain ⟨canonical, min, max⟩ := found
    dsimp only
    constructor
    · intro h
      split_ifs at h with hmin hmax heven
      refine ⟨canonical, min, max, rfl, by omega, by omega, fun hcase => ?_⟩
      have hodd : ¬ count % 2 = 0 := fun h => heven ⟨hcase, h⟩
      omega
    · rintro ⟨_, _, _, ⟨⟩, _, _, hodd⟩
      rw [if_neg (by omega), if_neg (by omega), if_neg]
      rintro ⟨hcase, _⟩
      have hone := hodd hcase
      omega

/-- The arity checks fail with the error of a check. -/
theorem checkArity_error {stop : Stop}
    (h : checkArity expression env start name count = .error stop) :
    ∃ error, stop = .error error ∧ error.kind ≠ .internal := by
  unfold checkArity at h
  split at h
  · cases h
    exact ⟨_, rfl, nofun⟩
  · split_ifs at h <;> cases h <;> exact ⟨_, rfl, nofun⟩

end

/-! ## Depth -/

/-- The outcome of a check of the depth. -/
def Within (p : Prop) [Decidable p] : Except Stop Unit :=
  if p then .ok () else .error (.error (.withoutToken .exceededMaxDepth))

theorem Within.bind {p q r : Prop} [Decidable p] [Decidable q] [Decidable r] (h : p ∧ q ↔ r) :
    (Within p >>= fun _ => Within q) = Within r := by
  by_cases hp : p <;> by_cases hq : q <;> simp [Within, hp, hq, ← h] <;> rfl

theorem checkDepth_eq (depth : Nat) : checkDepth depth = Within (depth ≤ maxDepth) := by
  unfold checkDepth Within
  split_ifs <;> first | rfl | omega

mutual

/-- The check goes through exactly when no node is deeper than the limit. -/
theorem checkMaxDepth_eq (depth : Nat) :
    ∀ node : Node, checkMaxDepth depth node = Within (depth + node.depth ≤ maxDepth + 1)
  | .literal _ | .wildcard | .namedValue _ => by
    simp only [checkMaxDepth, Node.depth, checkDepth_eq, Nat.add_le_add_iff_right]
  | .not inner => by
    rw [checkMaxDepth, checkDepth_eq, checkMaxDepth_eq (depth + 1) inner]
    refine Within.bind ?_
    rw [Node.depth]
    omega
  | .index left right | .binary _ left right => by
    rw [checkMaxDepth, checkDepth_eq, checkMaxDepth_eq (depth + 1) left,
      checkMaxDepth_eq (depth + 1) right, Within.bind Iff.rfl]
    refine Within.bind ?_
    rw [Node.depth]
    omega
  | .and nodes | .or nodes | .function _ nodes => by
    rw [checkMaxDepth, checkDepth_eq, checkMaxDepths_eq (depth + 1) nodes]
    refine Within.bind ?_
    rw [Node.depth]
    omega

theorem checkMaxDepths_eq (depth : Nat) : ∀ nodes : List Node,
    checkMaxDepths depth nodes = Within (depthAll nodes = 0 ∨ depth + depthAll nodes ≤ maxDepth + 1)
  | [] => rfl
  | node :: nodes => by
    have hpos : 0 < node.depth := by cases node <;> exact Nat.succ_pos _
    rw [checkMaxDepths, checkMaxDepth_eq depth node, checkMaxDepths_eq depth nodes]
    refine Within.bind ?_
    rw [depthAll]
    omega

end

end Velnor.Expression
