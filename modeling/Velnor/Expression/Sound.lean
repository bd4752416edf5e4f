/-
  The invariant that ties the lexical analyzer, the two stacks of the parser
  and the grammar together.  `Expecting` says how the stacks were built: every
  operator on them has the derivation of what stands to its left, and the
  opening brackets are those the analyzer holds open.  From it follows that a
  flush always finds the operands and the opening token it takes off, so no
  parse ends in an internal error or a panic, and that what a parse returns is
  the merged tree of a sentence.
-/
import Velnor.Expression.Flush

namespace Velnor.Expression

open Text Relational LexicalAnalyzer List Level

theorem mergeAll_eq_map (trees : List Tree) : mergeAll trees = trees.map Tree.merge := by
  induction trees with
  | nil => rfl
  | cons _ _ ih => rw [mergeAll, ih, map_cons]

/-- An argument put on top of those in front of it. -/
theorem mergeAll_snoc_reverse (args : List Tree) (arg : Tree) (below : List Node) :
    arg.merge :: ((mergeAll args).reverse ++ below)
      = (mergeAll (args ++ [arg])).reverse ++ below := by
  simp [mergeAll_eq_map]

variable {n : Nat} {o : Level} {name : Str}

section
variable {env : ParseEnvironment} {expression : Str}

/-- `Expecting env expression level star unclosed operands operators s`: the
    parser stands at `s` with these stacks and expects a phrase of the level,
    which may begin with "*" if `star`. -/
inductive Expecting (env : ParseEnvironment) (expression : Str) :
    Level → Bool → List TokenKind → List Node → List Token → Str → Prop where
  | root : Expecting env expression .or false [] [] [] expression
  | operator {level : Level} {star : Bool} {unclosed : List TokenKind} {operands : List Node}
      {operators : List Token} {op : Operator} {left : Tree} {token : Token}
      {s s₁ s₂ : Str}
      (houter : Expecting env expression level star unclosed operands operators s)
      (hlevel : level ≤ op.level) (hleft : Derives env (.phrase op.level star left) s s₁)
      (hop : op.Stands s₁ s₂) (htoken : token.Is (.operator op)) :
      Expecting env expression op.rightLevel false unclosed (left.merge :: operands)
        (token :: operators) s₂
  | not {level : Level} {star : Bool} {unclosed : List TokenKind} {operands : List Node}
      {operators : List Token} {token : Token} {s s₁ : Str}
      (houter : Expecting env expression level star unclosed operands operators s)
      (hbang : Bang s s₁) (htoken : token.Is .not) :
      Expecting env expression .not false unclosed operands (token :: operators) s₁
  | group {level : Level} {star : Bool} {unclosed : List TokenKind} {operands : List Node}
      {operators : List Token} {token : Token} {s s₁ : Str}
      (houter : Expecting env expression level star unclosed operands operators s)
      (hopen : Symbol '(' s s₁) (htoken : token.kind = .startGroup) :
      Expecting env expression .or false (.startGroup :: unclosed) operands (token :: operators) s₁
  | index {level : Level} {star : Bool} {unclosed : List TokenKind} {operands : List Node}
      {operators : List Token} {tree : Tree} {token : Token} {s s₁ s₂ : Str}
      (houter : Expecting env expression level star unclosed operands operators s)
      (htree : Derives env (.phrase .primary star tree) s s₁) (hopen : Symbol '[' s₁ s₂)
      (htoken : token.kind = .startIndex) :
      Expecting env expression .or true (.startIndex :: unclosed) (tree.merge :: operands)
        (token :: operators) s₂
  | call {level : Level} {star : Bool} {unclosed : List TokenKind} {operands : List Node}
      {operators separators : List Token} {name : Str} {args : List Tree} {token : Token}
      {s s₁ s₂ : Str}
      (houter : Expecting env expression level star unclosed operands operators s)
      (hhead : CallHead name s s₁) (hknown : (lookupFunction env name).isSome = true)
      (hargs : Derives env (.leading args) s₁ s₂) (htoken : token.kind = .startParameters)
      (hseparators : ∀ separator ∈ separators, separator.kind = .separator)
      (hlength : separators.length = args.length) :
      Expecting env expression .or false (.startParameters :: unclosed)
        ((mergeAll args).reverse ++ .function (functionName env name) [] :: operands)
        (separators ++ token :: operators) s₂

namespace Expecting

variable {level : Level} {star : Bool} {unclosed : List TokenKind} {operands : List Node}
  {operators : List Token} {s s' : Str}

section

variable (h : Expecting env expression level star unclosed operands operators s)
include h

theorem level_le_not : level ≤ .not := by
  cases h with
  | operator => exact Operator.rightLevel_le_not _
  | _ => decide

/-- Every open bracket is on the operator stack. -/
theorem operators_ne_nil (hopen : unclosed ≠ []) : operators ≠ [] := by
  cases h with
  | root => exact absurd rfl hopen
  | call => exact append_ne_nil_of_right_ne_nil _ (cons_ne_nil _ _)
  | _ => exact cons_ne_nil _ _

end

theorem operands_eq_nil (h : Expecting env expression level star unclosed operands [] s) :
    operands = [] := by
  generalize hnil : ([] : List Token) = operators at h
  cases h with
  | root => rfl
  | call => exact absurd hnil.symm (append_ne_nil_of_right_ne_nil _ (cons_ne_nil _ _))
  | _ => cases hnil

/-- The flush in front of a token of the threshold, with a phrase on top of what
    was expected: it joins the phrase with the pending operators and ends with
    a phrase of the threshold's level. -/
theorem flush (hn : Threshold n o) (last : Option TokenKind)
    (h : Expecting env expression level star unclosed operands operators s) :
    ∀ {p : Level} {tree : Tree}, level ≤ p → o ≤ p →
      Derives env (.phrase p star tree) s s' →
      ∃ level' star' operands' operators' start tree',
        flushWhile expression env last n ⟨tree.merge :: operands, operators⟩
            = .ok ⟨tree'.merge :: operands', operators'⟩
          ∧ Expecting env expression level' star' unclosed operands' operators' start
          ∧ level' ≤ o ∧ Derives env (.phrase o star' tree') start s' := by
  induction h with
  | root =>
    intro _ _ _ hop htree
    exact ⟨_, _, _, _, _, _, flushWhile_stops nofun, .root, or_le o, .lift hop htree⟩
  | @operator level star unclosed operands operators op left token s s₁ s₂ houter hlevel hleft
      hstands htoken ih =>
      intro _ _ hle hop htree
      by_cases hflush : o ≤ op.level
      · -- the operator is taken off; the joined phrase has its level
        rw [flushWhile_operator hn htoken hflush]
        exact ih hlevel hflush (.binary hleft hstands (.lift hle htree))
      · exact ⟨_, _, _, _, _, _, flushWhile_stops (stops_operator hn htoken hflush),
          .operator houter hlevel hleft hstands htoken, (op.rightLevel_le_iff o).mpr hflush,
          .lift hop htree⟩
  | @not _ _ _ _ _ _ _ _ houter hbang htoken ih =>
    intro _ _ hle hop htree
    by_cases hflush : o ≤ .not
    · rw [flushWhile_not hn htoken hflush]
      exact ih houter.level_le_not hflush (.not hbang (.lift hle htree))
    · exact ⟨_, _, _, _, _, _, flushWhile_stops (stops_not hn htoken hflush),
        .not houter hbang htoken, Nat.le_of_not_le hflush, .lift hop htree⟩
  | group houter hopen htoken =>
    intro _ _ _ hop htree
    exact ⟨_, _, _, _, _, _, flushWhile_stops (stops_barrier (by rw [htoken]; decide)),
      .group houter hopen htoken, or_le o, .lift hop htree⟩
  | index houter hindexed hopen htoken =>
    intro _ _ _ hop htree
    exact ⟨_, _, _, _, _, _, flushWhile_stops (stops_barrier (by rw [htoken]; decide)),
      .index houter hindexed hopen htoken, or_le o, .lift hop htree⟩
  | call houter hhead hknown hargs htoken hseparators hlength =>
    intro _ _ _ hop htree
    exact ⟨_, _, _, _, _, _, flushWhile_stops (stops_call hseparators htoken),
      .call houter hhead hknown hargs htoken hseparators hlength, or_le o, .lift hop htree⟩

section

variable (h : Expecting env expression level star unclosed operands operators s)
include h

/-- The bracket of a call is opened. -/
theorem openCall {token : Token} (hhead : CallHead name s s')
    (hknown : (lookupFunction env name).isSome = true) (htoken : token.kind = .startParameters) :
    Expecting env expression .or false (.startParameters :: unclosed)
      (.function (functionName env name) [] :: operands) (token :: operators) s' := by
  have hcall : Expecting env expression .or false (.startParameters :: unclosed)
      ((mergeAll []).reverse ++ .function (functionName env name) [] :: operands)
      ([] ++ token :: operators) s' :=
    .call h hhead hknown .none htoken nofun rfl
  exact hcall

/-- An argument and the separator behind it. -/
theorem addArgument {args : List Tree} {arg : Tree} {separators : List Token} {token start : Token}
    {s₁ s₂ s₃ : Str} (hhead : CallHead name s s₁)
    (hknown : (lookupFunction env name).isSome = true) (hargs : Derives env (.leading args) s₁ s₂)
    (hstart : start.kind = .startParameters)
    (hseparators : ∀ separator ∈ separators, separator.kind = .separator)
    (hlength : separators.length = args.length) (harg : Derives env (.phrase .or false arg) s₂ s₃)
    (hcomma : Symbol ',' s₃ s') (htoken : token.kind = .separator) :
    Expecting env expression .or false (.startParameters :: unclosed)
      (arg.merge :: ((mergeAll args).reverse ++ .function (functionName env name) [] :: operands))
      (token :: (separators ++ start :: operators)) s' := by
  have hcall : Expecting env expression .or false (.startParameters :: unclosed)
      ((mergeAll (args ++ [arg])).reverse ++ .function (functionName env name) [] :: operands)
      ((token :: separators) ++ start :: operators) s' :=
    .call h hhead hknown (.comma hargs harg hcomma) hstart
      (forall_mem_cons.mpr ⟨htoken, hseparators⟩) (by simp [hlength])
  rw [mergeAll_snoc_reverse]
  exact hcall

/-- Where an operand is expected no dereference is pending. -/
theorem stops_primary : Stops (precedence .primary) operators := by
  cases h with
  | root => rintro _ ⟨⟩
  | @operator _ _ _ _ _ op _ _ _ _ _ _ _ _ _ htoken =>
    refine stops_operator (.of_level .primary) htoken ?_
    exact (op.rightLevel_le_iff _).mp (op.rightLevel.le_primary)
  | not _ _ htoken => exact stops_not (.of_level .primary) htoken (by decide)
  | group _ _ htoken | index _ _ _ htoken => exact stops_barrier (by rw [htoken]; decide)
  | call _ _ _ _ htoken hseparators => exact stops_call hseparators htoken

end

/-! With every operator of the innermost bracket flushed, the stacks begin with
that bracket. -/

theorem of_closed (h : Expecting env expression level star [] operands operators s)
    (hle : level ≤ .or) : star = false ∧ operands = [] ∧ operators = [] ∧ s = expression := by
  cases h with
  | root => exact ⟨rfl, rfl, rfl, rfl⟩
  | operator => exact absurd (or_le _) ((Operator.rightLevel_le_iff _ _).mp hle)
  | not => exact absurd hle (by decide)

theorem of_group
    (h : Expecting env expression level star (.startGroup :: unclosed) operands operators s)
    (hle : level ≤ .or) :
    star = false ∧ ∃ level' star' token below start, operators = token :: below
      ∧ token.kind = .startGroup
      ∧ Expecting env expression level' star' unclosed operands below start
      ∧ Symbol '(' start s := by
  cases h with
  | operator => exact absurd (or_le _) ((Operator.rightLevel_le_iff _ _).mp hle)
  | not => exact absurd hle (by decide)
  | group houter hopen htoken => exact ⟨rfl, _, _, _, _, _, rfl, htoken, houter, hopen⟩

theorem of_index
    (h : Expecting env expression level star (.startIndex :: unclosed) operands operators s)
    (hle : level ≤ .or) :
    star = true ∧ ∃ level' star' tree rest token below start start', operators = token :: below
      ∧ operands = Tree.merge tree :: rest ∧ token.kind = .startIndex
      ∧ Expecting env expression level' star' unclosed rest below start
      ∧ Derives env (.phrase .primary star' tree) start start' ∧ Symbol '[' start' s := by
  cases h with
  | operator => exact absurd (or_le _) ((Operator.rightLevel_le_iff _ _).mp hle)
  | not => exact absurd hle (by decide)
  | index houter htree hopen htoken =>
    exact ⟨rfl, _, _, _, _, _, _, _, _, rfl, rfl, htoken, houter, htree, hopen⟩

theorem of_call
    (h : Expecting env expression level star (.startParameters :: unclosed) operands operators s)
    (hle : level ≤ .or) :
    star = false ∧ ∃ level' star' name args rest separators token below start start',
      operators = separators ++ token :: below
      ∧ operands = (mergeAll args).reverse ++ .function (functionName env name) [] :: rest
      ∧ Expecting env expression level' star' unclosed rest below start
      ∧ CallHead name start start' ∧ (lookupFunction env name).isSome = true
      ∧ Derives env (.leading args) start' s ∧ token.kind = .startParameters
      ∧ (∀ separator ∈ separators, separator.kind = .separator)
      ∧ separators.length = args.length := by
  cases h with
  | operator => exact absurd (or_le _) ((Operator.rightLevel_le_iff _ _).mp hle)
  | not => exact absurd hle (by decide)
  | call houter hhead hknown hargs htoken hseparators hlength =>
    exact ⟨rfl, _, _, _, _, _, _, _, _, _, _, rfl, rfl, houter, hhead, hknown, hargs, htoken,
      hseparators, hlength⟩

end Expecting

/-! ## Outcomes -/

/-- A result with the property, or an error of the expression: not an internal
    one, and no panic. -/
def EndsWell {α : Type} (P : α → Prop) (outcome : Except Stop α) : Prop :=
  (∃ result, outcome = .ok result ∧ P result)
    ∨ ∃ error, outcome = .error (.error error) ∧ error.kind ≠ .internal

variable {α β : Type} {P Q : α → Prop} {outcome : Except Stop α} {result : α}

theorem EndsWell.ok (h : P result) : EndsWell P (.ok result) := .inl ⟨result, rfl, h⟩

theorem EndsWell.of_ok (h : EndsWell P outcome) (hok : outcome = .ok result) : P result := by
  rcases h with ⟨_, rfl, hresult⟩ | ⟨_, rfl, -⟩
  · cases hok
    exact hresult
  · cases hok

theorem EndsWell.mono (h : EndsWell P outcome) (himp : ∀ result, P result → Q result) :
    EndsWell Q outcome := by
  rcases h with ⟨result, hok, hresult⟩ | herror
  · exact .inl ⟨result, hok, himp result hresult⟩
  · exact .inr herror

theorem EndsWell.bind {Q : β → Prop} {next : α → Except Stop β} (h : EndsWell P outcome)
    (hnext : ∀ result, P result → EndsWell Q (next result)) : EndsWell Q (outcome >>= next) := by
  rcases h with ⟨result, rfl, hresult⟩ | ⟨error, rfl, herror⟩
  · exact hnext result hresult
  · exact .inr ⟨error, rfl, herror⟩

/-- The arity checks let exactly the counts through that the function takes. -/
theorem checkArity_endsWell (start : Token) (count : Nat)
    (hknown : (lookupFunction env name).isSome = true) :
    EndsWell (fun _ => TakesArguments env name count)
      (checkArity expression env start (functionName env name) count) := by
  cases h : checkArity expression env start (functionName env name) count with
  | ok => exact .ok ((checkArity_eq_ok_iff hknown).mp h)
  | error =>
    obtain ⟨error, rfl, herror⟩ := checkArity_error h
    exact .inr ⟨error, rfl, herror⟩

/-! ## Phases -/

/-- The operand is on the stack, or, if it is a property, its two parts are. -/
def Held (tree : Tree) (operands : List Node) (operators : List Token) (stack : Stacks) : Prop :=
  stack = ⟨tree.merge :: operands, operators⟩
    ∨ ∃ (token : Token) (left right : Tree), token.kind = .dereference ∧ tree = .index left right
        ∧ stack = ⟨right.merge :: left.merge :: operands, token :: operators⟩

/-- The bracket of a call was opened with the last token. -/
def OpenCall (env : ParseEnvironment) (expression : Str) (unclosed : List TokenKind)
    (operands : List Node) (operators : List Token) (s : Str) : Prop :=
  ∃ level star outer name rest token below start,
    Expecting env expression level star outer rest below start ∧ CallHead name start s
      ∧ (lookupFunction env name).isSome = true ∧ token.kind = .startParameters
      ∧ unclosed = .startParameters :: outer
      ∧ operands = .function (functionName env name) [] :: rest ∧ operators = token :: below

/-- The invariant of the loop, by the kind of the last token. -/
inductive Phase (env : ParseEnvironment) (expression : Str) :
    Option TokenKind → List TokenKind → Stacks → Str → Prop where
  | before {last : Option TokenKind} {level : Level} {star : Bool} {unclosed : List TokenKind}
      {operands : List Node} {operators : List Token} {s : Str}
      (hlast : last ∈ beforeOperand)
      (h : Expecting env expression level star unclosed operands operators s)
      (hstar : last = some .startIndex → star = true)
      (hcall : last = some .startParameters →
        OpenCall env expression unclosed operands operators s) :
      Phase env expression last unclosed ⟨operands, operators⟩ s
  | dereferenced {level : Level} {star : Bool} {unclosed : List TokenKind} {operands : List Node}
      {operators : List Token} {tree : Tree} {token : Token} {start s₁ s : Str}
      (h : Expecting env expression level star unclosed operands operators start)
      (htree : Derives env (.phrase .primary star tree) start s₁) (hdot : Symbol '.' s₁ s)
      (htoken : token.kind = .dereference) :
      Phase env expression (some .dereference) unclosed
        ⟨tree.merge :: operands, token :: operators⟩ s
  | function {level : Level} {star : Bool} {unclosed : List TokenKind} {operands : List Node}
      {operators : List Token} {name start s : Str}
      (h : Expecting env expression level star unclosed operands operators start)
      (hword : Word name start s) (hfree : LexicalAnalyzer.keywordLiteral name = none)
      (hknown : (lookupFunction env name).isSome = true)
      (hopen : (trimStart s).head? = some '(') :
      Phase env expression (some .function) unclosed
        ⟨.function (functionName env name) [] :: operands, operators⟩ s
  | after {last : Option TokenKind} {level p : Level} {star : Bool} {unclosed : List TokenKind}
      {operands : List Node} {operators : List Token} {tree : Tree} {stack : Stacks}
      {start s : Str} (hlast : last ∈ afterOperand)
      (h : Expecting env expression level star unclosed operands operators start)
      (hp : .operand ≤ p) (hindexable : last ∈ indexable → p = .primary)
      (htree : Derives env (.phrase p star tree) start s)
      (hheld : Held tree operands operators stack) :
      Phase env expression last unclosed stack s

namespace Phase

variable {last : Option TokenKind} {unclosed : List TokenKind} {stack : Stacks} {s : Str}

theorem not_after_of_before : ∀ last ∈ beforeOperand, last ∉ afterOperand := by
  decide

theorem after_of_indexable : ∀ last ∈ indexable, last ∈ afterOperand := by
  decide

theorem of_before (h : Phase env expression last unclosed stack s) (hlast : last ∈ beforeOperand) :
    ∃ level star, Expecting env expression level star unclosed stack.operands stack.operators s
      ∧ (last = some .startIndex → star = true)
      ∧ (last = some .startParameters →
          OpenCall env expression unclosed stack.operands stack.operators s) := by
  cases h with
  | before _ h hstar hcall => exact ⟨_, _, h, hstar, hcall⟩
  | dereferenced | function => exact absurd hlast (by decide)
  | after hafter => exact absurd hafter (not_after_of_before _ hlast)

/-- The flush in front of a token that follows an operand. -/
theorem settle (hn : Threshold n o) (h : Phase env expression last unclosed stack s)
    (hlast : last ∈ afterOperand) (ho : o ≤ .operand ∨ last ∈ indexable) :
    ∃ level star operands operators start tree,
      flushWhile expression env last n stack = .ok ⟨Tree.merge tree :: operands, operators⟩
        ∧ Expecting env expression level star unclosed operands operators start
        ∧ level ≤ o ∧ Derives env (.phrase o star tree) start s := by
  cases h with
  | before hbefore => exact absurd hlast (not_after_of_before _ hbefore)
  | dereferenced | function => exact absurd hlast (by decide)
  | @after _ level p _ _ _ _ _ _ _ _ _ h hp hindexable htree hheld =>
    have hop : o ≤ p := by
      rcases ho with ho | ho
      · exact le_trans ho hp
      · rw [hindexable ho]
        exact o.le_primary
    have hlevel : level ≤ p := le_trans h.level_le_not (le_trans (by decide) hp)
    have hflush := h.flush hn last hlevel hop htree
    rcases hheld with rfl | ⟨_, _, _, htoken, rfl, rfl⟩
    · exact hflush
    · rw [flushWhile_dereference hn htoken]
      exact hflush

/-! ### One token -/

/-- Pushing a token behind `last` leaves a token of the kind read up to `s`. -/
abbrev Pushes (env : ParseEnvironment) (expression : Str) (last : Option TokenKind)
    (stack : Stacks) (token : Token) (kind : TokenKind) (unclosed : List TokenKind)
    (s : Str) : Prop :=
  EndsWell (Phase env expression (some kind) unclosed · s)
    (pushToken expression env last token stack)

variable {s' : Str} {token : Token}

section

variable (h : Phase env expression last unclosed stack s) (hlast : last ∈ beforeOperand)
include h hlast

/-- Operands: a literal, a name, or the name of a function. -/
theorem push_operand {p : Level} (tree : Tree) (kind : TokenKind) (hkind : some kind ∈ afterOperand)
    (hp : .operand ≤ p) (hindexable : some kind ∈ indexable → p = .primary)
    (htree : ∀ star, Derives env (.phrase p star tree) s s') :
    Phase env expression (some kind) unclosed ⟨tree.merge :: stack.operands, stack.operators⟩
      s' := by
  obtain ⟨_, star, hexpecting, -, -⟩ := h.of_before hlast
  exact .after hkind hexpecting hp hindexable (htree star) (.inl rfl)

theorem push_not (hs : Bang s s') (htoken : token.Is .not) :
    Phase env expression (some .logicalOperator) unclosed
      ⟨stack.operands, token :: stack.operators⟩ s' := by
  obtain ⟨_, _, hexpecting, -, -⟩ := h.of_before hlast
  exact .before (by decide) (.not hexpecting hs htoken) nofun nofun

theorem push_startGroup (hs : Symbol '(' s s') (htoken : token.kind = .startGroup) :
    Phase env expression (some .startGroup) (.startGroup :: unclosed)
      ⟨stack.operands, token :: stack.operators⟩ s' := by
  obtain ⟨_, _, hexpecting, -, -⟩ := h.of_before hlast
  exact .before (by decide) (.group hexpecting hs htoken) nofun nofun

theorem push_function {name : Str} (hword : Word name s s')
    (hfree : keywordLiteral name = none) (hopen : (trimStart s').head? = some '(')
    (htoken : token.Is (.function name)) :
    Pushes env expression last stack token .function unclosed s' := by
  obtain ⟨_, _, hexpecting, -, -⟩ := h.of_before hlast
  rw [Pushes, pushToken_function htoken]
  split
  · next hknown => exact .ok (.function hexpecting hword hfree hknown hopen)
  · exact .inr ⟨_, rfl, nofun⟩

end

theorem push_startParameters (h : Phase env expression (some .function) unclosed stack s)
    (hs : Symbol '(' s s') (htoken : token.kind = .startParameters) :
    Pushes env expression (some .function) stack token .startParameters
      (.startParameters :: unclosed) s' := by
  cases h with
  | before hlast | after hlast => exact absurd hlast (by decide)
  | function h hword hfree hknown =>
    have hhead : CallHead _ _ s' := ⟨hfree, _, hword, hs⟩
    rw [Pushes, pushToken_tight (by rw [htoken]; decide), flushWhile_stops h.stops_primary]
    refine .ok (.before (by decide) (h.openCall hhead hknown htoken) nofun fun _ => ?_)
    exact ⟨_, _, _, _, _, _, _, _, h, hhead, hknown, htoken, rfl, rfl, rfl⟩

section

variable (h : Phase env expression last unclosed stack s)
include h

theorem push_operator (hlast : last ∈ afterOperand) {op : Operator} (hs : op.Stands s s')
    (htoken : token.Is (.operator op)) :
    Pushes env expression last stack token .logicalOperator unclosed s' := by
  obtain ⟨level, _, _, _, _, _, hflush, hexpecting, hle, htree⟩ :=
    h.settle (.of_level op.level) hlast (.inl (le_trans op.level_le_rightLevel
      (le_trans op.rightLevel_le_not (by decide))))
  rw [Pushes, pushToken_operator htoken, hflush]
  exact .ok (.before (by decide) (.operator hexpecting hle htree hs htoken) nofun nofun)

theorem push_startIndex (hlast : last ∈ indexable) (hs : Symbol '[' s s')
    (htoken : token.kind = .startIndex) :
    Pushes env expression last stack token .startIndex (.startIndex :: unclosed) s' := by
  obtain ⟨_, _, _, _, _, _, hflush, hexpecting, -, htree⟩ :=
    h.settle (.of_level .primary) (after_of_indexable _ hlast) (.inr hlast)
  rw [Pushes, pushToken_tight (by rw [htoken]; decide), hflush]
  exact .ok (.before (by decide) (.index hexpecting htree hs htoken) (fun _ => rfl) nofun)

theorem push_dereference (hlast : last ∈ indexable) (hs : Symbol '.' s s')
    (htoken : token.kind = .dereference) :
    Pushes env expression last stack token .dereference unclosed s' := by
  obtain ⟨_, _, _, _, _, _, hflush, hexpecting, -, htree⟩ :=
    h.settle (.of_level .primary) (after_of_indexable _ hlast) (.inr hlast)
  rw [Pushes, pushToken_tight (by rw [htoken]; decide), hflush]
  exact .ok (.dereferenced hexpecting htree hs htoken)

end

/-- The name of a property, or "*" for all of them. -/
theorem push_property (h : Phase env expression (some .dereference) unclosed stack s)
    (kind : TokenKind) (property : Tree) (hkind : some kind ∈ afterOperand)
    (hproperty : ∀ {star : Bool} {tree : Tree} {start s₁ : Str},
      Derives env (.phrase .primary star tree) start s₁ → Symbol '.' s₁ s →
      Derives env (.phrase .primary star (.index tree property)) start s') :
    Phase env expression (some kind) unclosed
      ⟨property.merge :: stack.operands, stack.operators⟩ s' := by
  cases h with
  | before hlast | after hlast => exact absurd hlast (by decide)
  | dereferenced h htree hdot htoken =>
    exact .after hkind h (by decide) (fun _ => rfl) (hproperty htree hdot)
      (.inr ⟨_, _, _, htoken, rfl, rfl⟩)

theorem push_separator (h : Phase env expression last unclosed stack s)
    (hlast : last ∈ afterOperand) (hopen : unclosed.head? = some .startParameters)
    (hs : Symbol ',' s s') (htoken : token.kind = .separator) :
    Pushes env expression last stack token .separator unclosed s' := by
  obtain ⟨_, _, _, _, _, _, hflush, hexpecting, hle, htree⟩ :=
    h.settle .close hlast (.inl (by decide))
  cases unclosed with
  | nil => cases hopen
  | cons kind unclosed =>
  cases hopen
  obtain ⟨rfl, _, _, _, _, _, _, _, _, _, _, rfl, rfl, houter, hhead,
    hknown, hargs, hstart, hseparators, hlength⟩ := hexpecting.of_call hle
  rw [Pushes, pushToken_separator htoken, hflush]
  exact .ok (.before (by decide) (houter.addArgument hhead hknown hargs hstart hseparators hlength
    htree hs htoken) nofun nofun)

theorem push_endGroup (h : Phase env expression last (.startGroup :: unclosed) stack s)
    (hlast : last ∈ afterOperand) (hs : Symbol ')' s s') (htoken : token.kind = .endGroup) :
    Pushes env expression last stack token .endGroup unclosed s' := by
  obtain ⟨_, _, _, _, _, _, hflush, hexpecting, hle, htree⟩ :=
    h.settle .close hlast (.inl (by decide))
  obtain ⟨rfl, _, _, _, _, _, rfl, hstart, houter, hopen⟩ := hexpecting.of_group hle
  rw [Pushes, pushToken_close (by rw [htoken]; decide), hflush, ok_bind,
    flushTopOperator_endGroup htoken hstart]
  exact .ok (.after (by decide) houter (by decide) (fun _ => rfl) (.group hopen htree hs)
    (.inl rfl))

theorem push_endIndex (h : Phase env expression last (.startIndex :: unclosed) stack s)
    (hlast : last ∈ afterOperand) (hs : Symbol ']' s s') (htoken : token.kind = .endIndex) :
    Pushes env expression last stack token .endIndex unclosed s' := by
  obtain ⟨_, _, _, _, _, _, hflush, hexpecting, hle, htree⟩ :=
    h.settle .close hlast (.inl (by decide))
  obtain ⟨rfl, _, _, _, _, _, _, _, _, rfl, rfl, hstart, houter, hindexed,
    hopen⟩ := hexpecting.of_index hle
  rw [Pushes, pushToken_close (by rw [htoken]; decide), hflush, ok_bind,
    flushTopOperator_endIndex htoken hstart]
  exact .ok (.after (by decide) houter (by decide) (fun _ => rfl)
    (.index hindexed hopen htree hs) (.inl rfl))

/-- The end of a call: of one without arguments right behind its bracket, of one
    with arguments behind the last of them. -/
theorem push_endParameters (h : Phase env expression last (.startParameters :: unclosed) stack s)
    (hlast : last = some .startParameters ∨ last ∈ afterOperand) (hs : Symbol ')' s s')
    (htoken : token.kind = .endParameters) :
    Pushes env expression last stack token .endParameters unclosed s' := by
  rw [Pushes, pushToken_close (by rw [htoken]; decide)]
  rcases hlast with rfl | hlast
  · obtain ⟨_, _, -, -, hcall⟩ := h.of_before (by decide)
    obtain ⟨_, _, outer, name, rest, start', below, _, houter, hhead, hknown, hstart, hopen,
      hoperands, hoperators⟩ := hcall rfl
    obtain ⟨operands, operators⟩ := stack
    obtain rfl : operands = _ := hoperands
    obtain rfl : operators = _ := hoperators
    obtain rfl : unclosed = outer := (cons.inj hopen).2
    rw [flushWhile_stops (stops_barrier (by rw [hstart]; decide)), ok_bind,
      flushTopOperator_emptyCall htoken hstart]
    refine (checkArity_endsWell start' 0 hknown).bind fun _ hcount => ?_
    exact .ok (.after (by decide) houter (by decide) (fun _ => rfl)
      (.emptyCall hhead hs hcount) (.inl rfl))
  · obtain ⟨_, _, _, _, _, tree, hflush, hexpecting, hle, htree⟩ :=
      h.settle .close hlast (.inl (by decide))
    obtain ⟨rfl, _, _, name, args, rest, separators, start', below, _, _, rfl, rfl, houter, hhead,
      hknown, hargs, hstart, hseparators, hlength⟩ := hexpecting.of_call hle
    have hcount : (mergeAll (args ++ [tree])).length = 1 + separators.length := by
      simp [mergeAll_eq_map, hlength, Nat.add_comm]
    have hne : last ≠ some .startParameters := by
      rintro rfl
      exact absurd hlast (by decide)
    rw [hflush, ok_bind, mergeAll_snoc_reverse,
      flushTopOperator_call hne htoken hstart hseparators hcount]
    refine (checkArity_endsWell start' _ hknown).bind fun _ htakes => ?_
    rw [hcount, Nat.add_comm, hlength] at htakes
    exact .ok (.after (by decide) houter (by decide) (fun _ => rfl)
      (.call hhead hargs htree hs htakes) (.inl rfl))

/-- Every legal token leads to the next phase, or to an error of the expression. -/
theorem step {lexeme : Lexeme} {unclosed' : List TokenKind}
    (h : Phase env expression last unclosed stack s)
    (hread : Reads last unclosed s lexeme s' unclosed') (htoken : token.Is lexeme) :
    Pushes env expression last stack token token.kind unclosed' s' := by
  have hkind := htoken.kind
  rw [hkind]
  cases hread with
  | startGroup hlast hs =>
    rw [Pushes, pushToken_startGroup hkind]
    exact .ok (h.push_startGroup hlast hs hkind)
  | startParameters hlast hs =>
    subst hlast
    exact h.push_startParameters hs hkind
  | startIndex hlast hs => exact h.push_startIndex hlast hs hkind
  | endGroup hlast hopen hs =>
    subst hopen
    exact h.push_endGroup hlast hs hkind
  | endParameters hlast hopen hs =>
    subst hopen
    exact h.push_endParameters hlast hs hkind
  | endIndex hlast hopen hs =>
    subst hopen
    exact h.push_endIndex hlast hs hkind
  | separator hlast hopen hs => exact h.push_separator hlast hopen hs hkind
  | dereference hlast hs => exact h.push_dereference hlast hs hkind
  | wildcard hlast hs =>
    rw [Pushes, pushToken_wildcard htoken]
    rcases hlast with rfl | rfl
    · obtain ⟨_, _, hexpecting, hstar, -⟩ := h.of_before (by decide)
      obtain rfl := hstar rfl
      exact .ok (.after (by decide) hexpecting (by decide) (fun _ => rfl) (.wildcard hs) (.inl rfl))
    · exact .ok (h.push_property .wildcard .wildcard (by decide)
        fun htree hdot => .everyProperty htree hdot hs)
  | not hlast hs =>
    rw [Pushes, pushToken_not htoken]
    exact .ok (h.push_not hlast hs htoken)
  | operator hlast hs => exact h.push_operator hlast hs htoken
  | @literal value _ hlast hs =>
    rw [Pushes, pushToken_literal htoken]
    refine .ok (h.push_operand hlast (.literal value) value.kind ?_ (le_refl operand) ?_
      fun _ => .literal hs)
    · cases value <;> simp only [Value.kind] <;> decide
    · intro hmem
      refine absurd hmem ?_
      cases value <;> simp only [Value.kind] <;> decide
  | propertyName hlast hs =>
    subst hlast
    rw [Pushes, pushToken_propertyName htoken]
    exact .ok (h.push_property .propertyName (.literal (.string _)) (by decide)
      fun htree hdot => .property htree hdot hs)
  | function hlast hs hfree hcall => exact h.push_function hlast hs hfree hcall htoken
  | namedValue hlast hs hfree hcall =>
    rw [Pushes, pushToken_namedValue htoken]
    split
    · rename_i hname
      exact .ok (h.push_operand hlast (.namedValue _) .namedValue (by decide) (by decide)
        (fun _ => rfl) fun _ => .namedValue hs hfree hcall hname)
    · exact .inr ⟨_, rfl, nofun⟩

end Phase

/-! ## The whole parse -/

/-- The invariant of the loop over the tokens. -/
structure Invariant (env : ParseEnvironment) (expression : Str) (context : ParseContext) :
    Prop where
  phase : Phase env expression context.lastKind context.lexer.unclosedKinds context.stack
    context.lexer.rest
  last : context.lexer.lastToken = context.lastToken

theorem Invariant.new (env : ParseEnvironment) (expression : Str) :
    Invariant env expression (.new expression) where
  phase := by
    have hnone : none ∈ beforeOperand := by decide
    exact .before hnone .root nofun nofun
  last := rfl

variable {context : ParseContext} {token : Token}

/-- One turn of the loop. -/
theorem Invariant.step {lexer : LexicalAnalyzer} (h : Invariant env expression context)
    (hnext : context.lexer.nextToken = some (token, lexer)) :
    EndsWell (fun stack => Invariant env expression ⟨lexer, stack, some token⟩)
      (pushToken expression env context.lastKind token context.stack) := by
  by_cases hexpected : token.kind = .unexpected
  · refine .inr ⟨_, if_pos hexpected, ?_⟩
    rintro ⟨⟩
  obtain ⟨_, hread, htoken⟩ := readsNext_of_nextToken hnext hexpected
  have hlast : context.lexer.lastKind = context.lastKind := congrArg (Option.map Token.kind) h.last
  rw [hlast] at hread
  exact (h.phase.step hread htoken).mono fun _ hphase => ⟨hphase, nextToken_lastToken hnext⟩

theorem pushTokens_endsWell (context : ParseContext) (hinv : Invariant env expression context) :
    EndsWell (fun final => Invariant env expression final ∧ Blank final.lexer.rest
        ∧ (final.lastToken = none → final = context))
      (pushTokens expression env context) := by
  fun_induction pushTokens expression env context with
  | case1 _ hnext =>
    exact .ok ⟨hinv, nextToken_eq_none_iff.mp hnext, fun _ => rfl⟩
  | case2 _ _ _ hnext _ hpush =>
    rcases hpush ▸ hinv.step hnext with ⟨_, hstacks, -⟩ | ⟨error, herror, hkind⟩
    · cases hstacks
    · cases herror
      exact .inr ⟨error, rfl, hkind⟩
  | case3 _ _ _ hnext _ hpush ih =>
    refine (ih ((hinv.step hnext).of_ok hpush)).mono fun final ⟨hinv, hblank, hsame⟩ => ?_
    refine ⟨hinv, hblank, fun hnone => ?_⟩
    rw [hsame hnone] at hnone
    cases hnone

theorem unexpectedLastToken_of_before (h : some token.kind ∈ beforeOperand) :
    unexpectedLastToken token = true := by
  obtain ⟨kind, _, _, _⟩ := token
  have hkind : some kind ∈ beforeOperand := h
  cases kind <;> first | rfl | exact absurd hkind (by decide)

/-- What the last phase says about the end of the expression: the last token
    cannot end it, or a bracket is open, or the stacks hold a sentence. -/
theorem Phase.atEnd {unclosed : List TokenKind} {stack : Stacks} {s : Str}
    (h : Phase env expression (some token.kind) unclosed stack s) (hblank : Blank s) :
    (unexpectedLastToken token = true ∧ (stack.operators = [] → stack.operands = []))
      ∨ (unclosed ≠ [] ∧ stack.operators ≠ [])
      ∨ ∃ tree, Sentence env expression tree
          ∧ flushWhile expression env (some token.kind) 1 stack = .ok ⟨[tree.merge], []⟩ := by
  have hphase := h
  generalize hlast : some token.kind = last at h
  cases h with
  | before _ hexpecting =>
    refine .inl ⟨unexpectedLastToken_of_before (by rwa [hlast]), ?_⟩
    rintro rfl
    exact hexpecting.operands_eq_nil
  | dereferenced =>
    have hkind : token.kind = .dereference := Option.some.inj hlast
    refine .inl ⟨?_, nofun⟩
    unfold unexpectedLastToken Token.isOperator
    rw [hkind]
  | function _ _ _ _ hopen =>
    rw [hblank] at hopen
    cases hopen
  | @after _ _ _ _ _ _ _ _ _ _ _ hafter hexpecting _ _ _ hheld =>
    rw [← hlast] at hafter
    cases hunclosed : unclosed with
    | nil =>
      subst hunclosed
      obtain ⟨_, _, _, _, _, sentence, hflush, hroot, hle, hderives⟩ :=
        hphase.settle .close hafter (.inl (by decide))
      obtain ⟨rfl, rfl, rfl, rfl⟩ := hroot.of_closed hle
      rw [← hlast]
      exact .inr (.inr ⟨sentence, ⟨s, hderives, hblank⟩, hflush⟩)
    | cons =>
      have hne := hexpecting.operators_ne_nil (by simp [hunclosed])
      refine .inr (.inl ⟨cons_ne_nil _ _, ?_⟩)
      rcases hheld with rfl | ⟨_, _, _, _, _, rfl⟩
      · exact hne
      · exact cons_ne_nil _ _

/-- What the end of the expression makes of the last phase. -/
theorem finish_endsWell (hinv : Invariant env expression context)
    (hblank : Blank context.lexer.rest) :
    EndsWell (fun result => (result = none → context.lastToken = none)
        ∧ ∀ node, result = some node → ∃ tree, Sentence env expression tree ∧ node = tree.merge
          ∧ node.depth ≤ maxDepth)
      (finish expression env context) := by
  obtain ⟨lexer, stack, lastToken⟩ := context
  cases lastToken with
  | none => exact .ok ⟨fun _ => rfl, by rintro _ ⟨⟩⟩
  | some token =>
  have hphase : Phase env expression (some token.kind) lexer.unclosedKinds stack lexer.rest :=
    hinv.phase
  unfold finish
  dsimp only
  split
  · exact .inr ⟨_, rfl, by rintro ⟨⟩⟩
  next hend =>
  obtain ⟨hlast, hnil⟩ | ⟨hopen, hne⟩ | ⟨tree, hsentence, hflush⟩ := hphase.atEnd hblank
  · -- nothing was read but a token that cannot end an expression
    have hoperators : stack.operators = [] := by
      by_contra hne
      exact hend ⟨hne, by rw [hlast]; rfl⟩
    have hall : flushAll expression env (some token.kind) stack = .ok stack := by
      unfold flushAll
      rw [hoperators]
    show EndsWell _ (flushAll expression env (some token.kind) stack >>= _)
    rw [hall, ok_bind, if_pos (by rw [hnil hoperators]; decide)]
    exact .inr ⟨_, rfl, by rintro ⟨⟩⟩
  · have hunclosed : lexer.hasUnclosedTokens = true := by
      simpa [hasUnclosedTokens, unclosedKinds] using hopen
    exact absurd ⟨hne, by rw [hunclosed, Bool.or_true]⟩ hend
  · show EndsWell _ (flushAll expression env (some token.kind) stack >>= _)
    rw [flushAll_of_flushWhile hflush rfl]
    show EndsWell _ (checkMaxDepth 1 tree.merge >>= _)
    rw [checkMaxDepth_eq, Within]
    split
    · refine .ok ⟨by rintro ⟨⟩, ?_⟩
      rintro _ ⟨⟩
      exact ⟨tree, hsentence, rfl, by omega⟩
    · exact .inr ⟨_, rfl, by rintro ⟨⟩⟩

/-- What a parse returns: nothing for a blank expression, the merged tree of a
    sentence otherwise, or an error of the expression. -/
theorem parse_endsWell (env : ParseEnvironment) (expression : Str) :
    EndsWell (fun result => expression.length ≤ maxLength ∧ (result = none → Blank expression)
        ∧ ∀ node, result = some node → ∃ tree, Sentence env expression tree ∧ node = tree.merge
          ∧ node.depth ≤ maxDepth)
      (parse expression env) := by
  unfold parse
  split
  · exact .inr ⟨_, rfl, nofun⟩
  refine (pushTokens_endsWell _ (.new env expression)).bind fun final hfinal => ?_
  obtain ⟨hinv, hblank, hsame⟩ := hfinal
  refine (finish_endsWell hinv hblank).mono fun result ⟨hnone, hsome⟩ => ?_
  refine ⟨by omega, fun h => ?_, hsome⟩
  rw [hsame (hnone h)] at hblank
  exact hblank

/-- Parsing always ends, with a result or with an error that is not internal. -/
theorem parse_never_internal (expression : Str) (env : ParseEnvironment) :
    (∃ result, parse expression env = .ok result)
      ∨ ∃ error, parse expression env = .error (.error error) ∧ error.kind ≠ .internal := by
  rcases parse_endsWell env expression with ⟨result, hresult, -⟩ | herror
  · exact .inl ⟨result, hresult⟩
  · exact .inr herror

end

end Velnor.Expression
