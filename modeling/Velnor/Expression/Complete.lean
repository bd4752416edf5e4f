/-
  Every sentence of the grammar is parsed to its merged tree.  A phrase leaves
  its operators pending on the stack, so what holds behind it is not that its
  node is on top: `Settled` says that every flush of the phrase's level or of a
  looser one goes on as if the node were there.  With the invariant for the
  other direction, the parser accepts exactly the sentences.
-/
import Velnor.Expression.Sound

namespace Velnor.Expression

open Text Relational LexicalAnalyzer

/-! ## Stacks that hold back a flush -/

/-- No token inside a phrase of the level flushes an operator of the stack. -/
structure Blocks (level : Level) (operators : List Token) : Prop where
  operator (operator : Operator) (hle : level ≤ operator.level) :
    Stops operator.level.precedence operators
  primary : Stops (Level.precedence .primary) operators

variable {token : Token} {op : Operator} {tight : Level} {stack : Stacks} {s s' : Str}

namespace Blocks

variable {level : Level} {operators : List Token}

theorem mono (h : Blocks level operators) (hle : level ≤ tight) : Blocks tight operators where
  operator operator htight := h.operator operator (le_trans hle htight)
  primary := h.primary

theorem nil (level : Level) : Blocks level [] where
  operator _ _ := by rintro _ ⟨⟩
  primary := by rintro _ ⟨⟩

theorem of_operator (h : token.Is (.operator op)) : Blocks op.rightLevel (token :: operators) where
  operator operator hle :=
    stops_operator (.of_level operator.level) h ((op.rightLevel_le_iff _).mp hle)
  primary := stops_operator (.of_level .primary) h
    ((op.rightLevel_le_iff _).mp op.rightLevel.le_primary)

/-- "!" holds back nothing but a dereference or an index, and no other token
    flushes inside what it applies to. -/
theorem of_not (h : token.Is .not) : Blocks .not (token :: operators) where
  operator operator hle := by
    refine absurd hle ((operator.rightLevel_le_iff _).mp operator.rightLevel_le_not)
  primary := stops_not (.of_level .primary) h (by decide)

theorem of_barrier (h : token.kind ∈ barriers) : Blocks level (token :: operators) where
  operator _ _ := stops_barrier h
  primary := stops_barrier h

theorem of_call {separators : List Token}
    (hseparators : ∀ separator ∈ separators, separator.kind = .separator)
    (h : token.kind = .startParameters) : Blocks level (separators ++ token :: operators) where
  operator _ _ := stops_call hseparators h
  primary := stops_call hseparators h

end Blocks

section
variable {env : ParseEnvironment} {expression : Str}

/-! ## Runs -/

/-- Where the loop over the tokens stands. -/
structure StandsAt (context : ParseContext) (last : Option TokenKind) (unclosed : List TokenKind)
    (stack : Stacks) (s : Str) : Prop where
  lastToken : context.lexer.lastToken = context.lastToken
  last : context.lastKind = last
  unclosed : context.lexer.unclosedKinds = unclosed
  stack : context.stack = stack
  rest : context.lexer.rest = s

/-- The loop comes to stand there. -/
def Reaches (env : ParseEnvironment) (expression : Str) (last : Option TokenKind)
    (unclosed : List TokenKind) (stack : Stacks) (s : Str) : Prop :=
  ∃ context, StandsAt context last unclosed stack s
    ∧ pushTokens expression env (.new expression) = pushTokens expression env context

theorem Reaches.start (env : ParseEnvironment) (expression : Str) :
    Reaches env expression none [] ⟨[], []⟩ expression :=
  ⟨.new expression, ⟨rfl, rfl, rfl, rfl, rfl⟩, rfl⟩

/-- One legal token on. -/
theorem Reaches.step {last : Option TokenKind} {unclosed unclosed' : List TokenKind}
    {lexeme : Lexeme} (h : Reaches env expression last unclosed stack s)
    (hread : Reads last unclosed s lexeme s' unclosed') :
    ∃ token, token.Is lexeme ∧ ∀ pushed,
      pushToken expression env last token stack = .ok pushed →
      Reaches env expression (some lexeme.kind) unclosed' pushed s' := by
  obtain ⟨context, ⟨hlastToken, rfl, rfl, rfl, rfl⟩, hrun⟩ := h
  have hkind : context.lexer.lastKind = context.lastKind :=
    congrArg (Option.map Token.kind) hlastToken
  rw [← hkind] at hread
  obtain ⟨token, behind, hnext, htoken, hrest, hunclosed, hlast⟩ := yields_of_reads hread
  refine ⟨token, htoken, fun pushed hpush => ?_⟩
  refine ⟨⟨behind, pushed, some token⟩, ⟨hlast, congrArg some htoken.kind, hunclosed, rfl, hrest⟩,
    hrun.trans ?_⟩
  conv_lhs => unfold pushTokens
  split
  · rename_i hnone
    rw [hnext] at hnone
    cases hnone
  · rename_i _ hsome
    rw [hnext] at hsome
    cases hsome
    rw [hpush]

/-! ## What a phrase leaves -/

section

variable (env expression)

/-- Every flush of the level or of a looser one goes on from the stacks as it
    does with the node on top of the operands. -/
def Settled (level : Level) (stack : Stacks) (node : Node) (operands : List Node)
    (operators : List Token) : Prop :=
  ∀ n o last, Threshold n o → o ≤ level →
    flushWhile expression env last n stack
      = flushWhile expression env last n ⟨node :: operands, operators⟩

/-- From every place where the phrase may stand, the loop comes to stand behind
    it, with the node of the tree. -/
def PhraseRuns (level : Level) (star : Bool) (tree : Tree) (s s' : Str) : Prop :=
  ∀ last unclosed operands operators, last ∈ beforeOperand →
    (star = true → last = some .startIndex) → Blocks level operators →
    Reaches env expression last unclosed ⟨operands, operators⟩ s →
    ∃ kind stack, some kind ∈ afterOperand ∧ (level = .primary → some kind ∈ indexable)
      ∧ Reaches env expression (some kind) unclosed stack s'
      ∧ Settled env expression level stack tree.merge operands operators

/-- From behind the bracket of a call, the loop comes to stand behind the
    leading arguments. -/
def LeadingRuns (args : List Tree) (s s' : Str) : Prop :=
  ∀ unclosed operands operators (start : Token), start.kind = .startParameters →
    Reaches env expression (some .startParameters) (.startParameters :: unclosed)
      ⟨operands, start :: operators⟩ s →
    ∃ last separators, last ∈ beforeOperand
      ∧ (∀ separator ∈ separators, Token.kind separator = .separator)
      ∧ separators.length = args.length
      ∧ Reaches env expression last (.startParameters :: unclosed)
          ⟨(mergeAll args).reverse ++ operands, separators ++ start :: operators⟩ s'

end

/-! ## One rule after the other -/

section
variable {level : Level} {star : Bool} {tree : Tree} {s₁ s₂ s₃ s₄ : Str}

/-- The node of the phrase is on top. -/
theorem Settled.refl (level : Level) (node : Node) (operands : List Node) (operators : List Token) :
    Settled env expression level ⟨node :: operands, operators⟩ node operands operators :=
  fun _ _ _ _ _ => rfl

variable {operands : List Node} {operators : List Token} {name : Str}

/-- A flush that the operators hold back leaves the node of the phrase. -/
theorem Settled.flushed {node : Node}
    (h : Settled env expression level stack node operands operators) {n : Nat} {o : Level}
    (hn : Threshold n o) (hle : o ≤ level) (hstops : Stops n operators) (last : Option TokenKind) :
    flushWhile expression env last n stack = .ok ⟨node :: operands, operators⟩ :=
  (h n o last hn hle).trans (flushWhile_stops hstops)

theorem PhraseRuns.lift (hle : level ≤ tight) (h : PhraseRuns env expression tight star tree s s₁) :
    PhraseRuns env expression level star tree s s₁ := by
  intro last unclosed operands operators hlast hstar hblocks hreach
  obtain ⟨kind, stack, hafter, hindexable, hreach', hsettled⟩ :=
    h last unclosed operands operators hlast hstar (hblocks.mono hle) hreach
  refine ⟨kind, stack, hafter, fun hprimary => hindexable ?_, hreach', ?_⟩
  · subst hprimary
    cases tight <;> first | rfl | exact absurd hle (by decide)
  · intro n o last hn ho
    exact hsettled n o last hn (le_trans ho hle)

theorem PhraseRuns.binary {left right : Tree}
    (hl : PhraseRuns env expression op.level star left s s₁) (hop : op.Stands s₁ s₂)
    (hr : PhraseRuns env expression op.rightLevel false right s₂ s₃) :
    PhraseRuns env expression op.level star (.binary op left right) s s₃ := by
  intro last unclosed operands operators hlast hstar hblocks hreach
  obtain ⟨kind, stack, hafter, -, hreach, hsettled⟩ :=
    hl last unclosed operands operators hlast hstar hblocks hreach
  obtain ⟨token, htoken, hpush⟩ := hreach.step (.operator hafter hop)
  have hflush := hsettled.flushed (.of_level op.level) (le_refl _)
    (hblocks.operator op (le_refl _)) (some kind)
  have hreach := hpush ⟨left.merge :: operands, token :: operators⟩
    (by rw [pushToken_operator htoken, hflush]; rfl)
  obtain ⟨kind, stack, hafter, -, hreach, hsettled⟩ :=
    hr _ unclosed _ _ (by decide : some TokenKind.logicalOperator ∈ beforeOperand) nofun
      (.of_operator htoken) hreach
  refine ⟨kind, stack, hafter, fun hprimary => ?_, hreach, fun n o last hn ho => ?_⟩
  · cases op with
    | compare comparison => cases comparison <;> cases hprimary
    | _ => cases hprimary
  · rw [hsettled n o last hn (le_trans ho op.level_le_rightLevel), flushWhile_operator hn htoken ho]
    rfl

theorem PhraseRuns.not (hbang : Bang s s₁) (h : PhraseRuns env expression .not false tree s₁ s₂) :
    PhraseRuns env expression .not star (.not tree) s s₂ := by
  intro last unclosed operands operators hlast _ _ hreach
  obtain ⟨token, htoken, hpush⟩ := hreach.step (.not hlast hbang)
  have hreach := hpush ⟨operands, token :: operators⟩ (pushToken_not htoken)
  obtain ⟨kind, stack, hafter, -, hreach, hsettled⟩ :=
    h _ unclosed _ _ (by decide : some TokenKind.logicalOperator ∈ beforeOperand) nofun
      (.of_not htoken) hreach
  refine ⟨kind, stack, hafter, by rintro ⟨⟩, hreach, fun n o last hn ho => ?_⟩
  rw [hsettled n o last hn ho, flushWhile_not hn htoken ho]
  rfl

theorem PhraseRuns.literal {value : Value} (h : Literal value s s₁) :
    PhraseRuns env expression .operand star (.literal value) s s₁ := by
  intro _ _ _ _ hlast _ _ hreach
  obtain ⟨_, htoken, hpush⟩ := hreach.step (.literal hlast h)
  refine ⟨value.kind, _, ?_, by rintro ⟨⟩, hpush _ (pushToken_literal htoken), .refl _ _ _ _⟩
  cases value <;> simp only [Value.kind] <;> decide

theorem PhraseRuns.namedValue (hword : Word name s s₁)
    (hfree : keywordLiteral name = none) (hcall : (trimStart s₁).head? ≠ some '(')
    (hname : env.isNamedValue name = true) :
    PhraseRuns env expression .primary star (.namedValue name) s s₁ := by
  intro _ _ _ _ hlast _ _ hreach
  obtain ⟨_, htoken, hpush⟩ := hreach.step (.namedValue hlast hword hfree hcall)
  exact ⟨.namedValue, _, by decide, fun _ => by decide,
    hpush _ ((pushToken_namedValue htoken).trans (if_pos hname)), .refl _ _ _ _⟩

theorem PhraseRuns.wildcard (h : Symbol '*' s s₁) :
    PhraseRuns env expression .primary true .wildcard s s₁ := by
  intro _ _ _ _ _ hstar _ hreach
  obtain ⟨_, htoken, hpush⟩ := hreach.step (.wildcard (.inl (hstar rfl)) h)
  exact ⟨.wildcard, _, by decide, fun _ => by decide, hpush _ (pushToken_wildcard htoken),
    .refl _ _ _ _⟩

theorem PhraseRuns.group (hopen : Symbol '(' s s₁)
    (h : PhraseRuns env expression .or false tree s₁ s₂) (hclose : Symbol ')' s₂ s₃) :
    PhraseRuns env expression .primary star tree s s₃ := by
  intro _ _ operands operators hlast _ _ hreach
  obtain ⟨start, hstart, hpush⟩ := hreach.step (.startGroup hlast hopen)
  have hreach := hpush ⟨operands, start :: operators⟩ (pushToken_startGroup hstart.kind)
  have hbarrier : start.kind ∈ barriers := by
    rw [hstart.kind]
    decide
  obtain ⟨kind, _, hafter, -, hreach, hsettled⟩ :=
    h _ _ _ _ (by decide : some TokenKind.startGroup ∈ beforeOperand) nofun
      (.of_barrier hbarrier) hreach
  obtain ⟨_, htoken, hpush⟩ := hreach.step (.endGroup hafter rfl hclose)
  have hflush := hsettled.flushed .close (le_refl _) (stops_barrier hbarrier) (some kind)
  have hreach := hpush ⟨tree.merge :: operands, operators⟩ (by
    rw [pushToken_close (by rw [htoken.kind]; decide), hflush, ok_bind,
      flushTopOperator_endGroup htoken.kind hstart.kind])
  exact ⟨.endGroup, _, by decide, fun _ => by decide, hreach, .refl _ _ _ _⟩

variable {last : Option TokenKind} {unclosed : List TokenKind}

/-- A phrase and the dereference behind it. -/
theorem PhraseRuns.dereference (h : PhraseRuns env expression .primary star tree s s₁)
    (hdot : Symbol '.' s₁ s₂) (hlast : last ∈ beforeOperand)
    (hstar : star = true → last = some .startIndex) (hblocks : Blocks .primary operators)
    (hreach : Reaches env expression last unclosed ⟨operands, operators⟩ s) :
    ∃ token, Token.kind token = .dereference
      ∧ Reaches env expression (some .dereference) unclosed
          ⟨tree.merge :: operands, token :: operators⟩ s₂ := by
  obtain ⟨kind, _, _, hindexable, hreach, hsettled⟩ :=
    h last unclosed operands operators hlast hstar hblocks hreach
  obtain ⟨token, htoken, hpush⟩ := hreach.step (.dereference (hindexable rfl) hdot)
  have hflush := hsettled.flushed (.of_level .primary) (le_refl _) hblocks.primary (some kind)
  refine ⟨token, htoken.kind, hpush _ ?_⟩
  rw [pushToken_tight (by rw [htoken.kind]; decide), hflush]
  rfl

/-- The two parts of a property are joined by the next flush. -/
theorem Settled.dereference (htoken : token.kind = .dereference) (left right : Node)
    (operands : List Node) (operators : List Token) :
    Settled env expression level ⟨right :: left :: operands, token :: operators⟩
      (.index left right) operands operators :=
  fun _ _ _ hn _ => flushWhile_dereference hn htoken left right

section

variable (h : PhraseRuns env expression .primary star tree s s₁)
include h

theorem PhraseRuns.property (hdot : Symbol '.' s₁ s₂) (hname : Word name s₂ s₃) :
    PhraseRuns env expression .primary star (.index tree (.literal (.string name))) s s₃ := by
  intro _ _ _ _ hlast hstar hblocks hreach
  obtain ⟨_, hdotToken, hreach⟩ := h.dereference hdot hlast hstar hblocks hreach
  obtain ⟨_, htoken, hpush⟩ := hreach.step (.propertyName rfl hname)
  exact ⟨.propertyName, _, by decide, fun _ => by decide, hpush _ (pushToken_propertyName htoken),
    .dereference hdotToken _ _ _ _⟩

theorem PhraseRuns.everyProperty (hdot : Symbol '.' s₁ s₂) (hstars : Symbol '*' s₂ s₃) :
    PhraseRuns env expression .primary star (.index tree .wildcard) s s₃ := by
  intro _ _ _ _ hlast hstar hblocks hreach
  obtain ⟨_, hdotToken, hreach⟩ := h.dereference hdot hlast hstar hblocks hreach
  obtain ⟨_, htoken, hpush⟩ := hreach.step (.wildcard (.inr rfl) hstars)
  exact ⟨.wildcard, _, by decide, fun _ => by decide, hpush _ (pushToken_wildcard htoken),
    .dereference hdotToken _ _ _ _⟩

theorem PhraseRuns.index {i : Tree} (hopen : Symbol '[' s₁ s₂)
    (hi : PhraseRuns env expression .or true i s₂ s₃) (hclose : Symbol ']' s₃ s₄) :
    PhraseRuns env expression .primary star (.index tree i) s s₄ := by
  intro last unclosed operands operators hlast hstar hblocks hreach
  obtain ⟨kind, stack, hafter, hindexable, hreach, hsettled⟩ :=
    h last unclosed operands operators hlast hstar hblocks hreach
  obtain ⟨start, hstart, hpush⟩ := hreach.step (.startIndex (hindexable rfl) hopen)
  have hbarrier : start.kind ∈ barriers := by
    rw [hstart.kind]
    decide
  have hflush := hsettled.flushed (.of_level .primary) (le_refl _) hblocks.primary (some kind)
  have hreach := hpush ⟨tree.merge :: operands, start :: operators⟩ (by
    rw [pushToken_tight (by rw [hstart.kind]; decide), hflush]
    rfl)
  obtain ⟨kind, _, hafter, -, hreach, hsettled⟩ :=
    hi _ _ _ _ (by decide : some TokenKind.startIndex ∈ beforeOperand) (fun _ => rfl)
      (.of_barrier hbarrier) hreach
  obtain ⟨_, htoken, hpush⟩ := hreach.step (.endIndex hafter rfl hclose)
  have hflush := hsettled.flushed .close (le_refl _) (stops_barrier hbarrier) (some kind)
  have hreach := hpush ⟨.index tree.merge i.merge :: operands, operators⟩ (by
    rw [pushToken_close (by rw [htoken.kind]; decide), hflush, ok_bind,
      flushTopOperator_endIndex htoken.kind hstart.kind])
  exact ⟨.endIndex, _, by decide, fun _ => by decide, hreach, .refl _ _ _ _⟩

end

/-! ### Calls -/

/-- The name of a function and its opening bracket. -/
theorem CallHead.reaches (hhead : CallHead name s s₁)
    (hknown : (lookupFunction env name).isSome = true) (hlast : last ∈ beforeOperand)
    (hblocks : Blocks .primary operators)
    (hreach : Reaches env expression last unclosed ⟨operands, operators⟩ s) :
    ∃ start, Token.kind start = .startParameters
      ∧ Reaches env expression (some .startParameters) (.startParameters :: unclosed)
          ⟨.function (functionName env name) [] :: operands, start :: operators⟩ s₁ := by
  obtain ⟨hfree, _, hword, hopen⟩ := hhead
  obtain ⟨_, htoken, hpush⟩ := hreach.step (.function hlast hword hfree (by rw [hopen]; rfl))
  have hreach := hpush _ ((pushToken_function htoken).trans (if_pos hknown))
  obtain ⟨start, hstart, hpush⟩ := hreach.step (.startParameters rfl hopen)
  refine ⟨start, hstart.kind, hpush _ ?_⟩
  rw [pushToken_tight (by rw [hstart.kind]; decide), flushWhile_stops hblocks.primary]
  rfl

theorem TakesArguments.known {count : Nat} (h : TakesArguments env name count) :
    (lookupFunction env name).isSome = true := by
  obtain ⟨_, _, _, hlookup, -⟩ := h
  rw [hlookup]
  rfl

theorem PhraseRuns.emptyCall (hhead : CallHead name s s₁) (hclose : Symbol ')' s₁ s₂)
    (hcount : TakesArguments env name 0) :
    PhraseRuns env expression .primary star (.call (functionName env name) []) s s₂ := by
  intro _ _ _ _ hlast _ hblocks hreach
  obtain ⟨_, hstart, hreach⟩ := hhead.reaches hcount.known hlast hblocks hreach
  obtain ⟨_, htoken, hpush⟩ := hreach.step (.endParameters (.inl rfl) rfl hclose)
  refine ⟨.endParameters, _, by decide, fun _ => by decide, hpush _ ?_, .refl _ _ _ _⟩
  rw [pushToken_close (by rw [htoken.kind]; decide),
    flushWhile_stops (stops_barrier (by rw [hstart]; decide)), ok_bind,
    flushTopOperator_emptyCall htoken.kind hstart, (checkArity_eq_ok_iff hcount.known).mpr hcount]
  rfl

theorem LeadingRuns.none : LeadingRuns env expression [] s s := by
  intro _ _ _ _ _ hreach
  exact ⟨_, [], by decide, by rintro _ ⟨⟩, rfl, hreach⟩

theorem LeadingRuns.comma {args : List Tree} {arg : Tree}
    (hargs : LeadingRuns env expression args s s₁)
    (harg : PhraseRuns env expression .or false arg s₁ s₂) (hcomma : Symbol ',' s₂ s₃) :
    LeadingRuns env expression (args ++ [arg]) s s₃ := by
  intro unclosed operands operators start hstart hreach
  obtain ⟨_, separators, hlast, hseparators, hlength, hreach⟩ :=
    hargs unclosed operands operators start hstart hreach
  obtain ⟨kind, _, hafter, -, hreach, hsettled⟩ :=
    harg _ _ _ _ hlast nofun (.of_call hseparators hstart) hreach
  obtain ⟨token, htoken, hpush⟩ := hreach.step (.separator hafter rfl hcomma)
  have hflush := hsettled.flushed .close (le_refl _) (stops_call hseparators hstart) (some kind)
  refine ⟨some .separator, token :: separators, by decide,
    List.forall_mem_cons.mpr ⟨htoken.kind, hseparators⟩, by simp [hlength], ?_⟩
  rw [← mergeAll_snoc_reverse]
  refine hpush _ ?_
  rw [pushToken_separator htoken.kind, hflush]
  rfl

theorem PhraseRuns.call {args : List Tree} {arg : Tree} (hhead : CallHead name s s₁)
    (hargs : LeadingRuns env expression args s₁ s₂)
    (harg : PhraseRuns env expression .or false arg s₂ s₃) (hclose : Symbol ')' s₃ s₄)
    (hcount : TakesArguments env name (args.length + 1)) :
    PhraseRuns env expression .primary star (.call (functionName env name) (args ++ [arg]))
      s s₄ := by
  intro last unclosed _ operators hlast _ hblocks hreach
  obtain ⟨start, hstart, hreach⟩ := hhead.reaches hcount.known hlast hblocks hreach
  obtain ⟨_, _, hlast, hseparators, _, hreach⟩ := hargs unclosed _ operators start hstart hreach
  obtain ⟨kind, _, hafter, -, hreach, hsettled⟩ :=
    harg _ _ _ _ hlast nofun (.of_call hseparators hstart) hreach
  obtain ⟨_, htoken, hpush⟩ := hreach.step (.endParameters (.inr hafter) rfl hclose)
  have hflush := hsettled.flushed .close (le_refl _) (stops_call hseparators hstart) (some kind)
  have hne : some kind ≠ some .startParameters := by
    rintro ⟨⟩
    exact absurd hafter (by decide)
  have harity : (mergeAll (args ++ [arg])).length = args.length + 1 := by simp [mergeAll_eq_map]
  refine ⟨.endParameters, _, by decide, fun _ => by decide, hpush _ ?_, .refl _ _ _ _⟩
  rw [pushToken_close (by rw [htoken.kind]; decide), hflush, ok_bind, mergeAll_snoc_reverse,
    flushTopOperator_call hne htoken.kind hstart hseparators (by omega), harity,
    (checkArity_eq_ok_iff hcount.known).mpr hcount]
  rfl

end

/-! ## Sentences -/

/-- Every text of a form is run through. -/
theorem Derives.runs {form : Form} (h : Derives env form s s') :
    match form with
    | .phrase level star tree => PhraseRuns env expression level star tree s s'
    | .leading args => LeadingRuns env expression args s s' := by
  induction h with
  | lift hle _ ih => exact .lift hle ih
  | binary _ hop _ ihl ihr => exact .binary ihl hop ihr
  | not hbang _ ih => exact .not hbang ih
  | literal h => exact .literal h
  | namedValue hword hfree hcall hname => exact .namedValue hword hfree hcall hname
  | wildcard h => exact .wildcard h
  | group hopen _ hclose ih => exact .group hopen ih hclose
  | property _ hdot hname ih => exact .property ih hdot hname
  | everyProperty _ hdot hstar ih => exact .everyProperty ih hdot hstar
  | index _ hopen _ hclose ih ihi => exact .index ih hopen ihi hclose
  | emptyCall hhead hclose hcount => exact .emptyCall hhead hclose hcount
  | call hhead _ _ hclose hcount ihargs iharg => exact .call hhead ihargs iharg hclose hcount
  | none => exact .none
  | comma _ _ hcomma ihargs iharg => exact .comma ihargs iharg hcomma

theorem pushTokens_of_blank {context : ParseContext} (h : Blank context.lexer.rest) :
    pushTokens expression env context = .ok context := by
  unfold pushTokens
  split
  · rfl
  · rename_i hsome
    rw [nextToken_eq_none_iff.mpr h] at hsome
    cases hsome

theorem unexpectedLastToken_of_after (h : some token.kind ∈ afterOperand) :
    unexpectedLastToken token = false := by
  obtain ⟨kind, _, _, _⟩ := token
  have hkind : some kind ∈ afterOperand := h
  cases kind <;> first | rfl | exact absurd hkind (by decide)

theorem parse_sentence {tree : Tree} (hlength : expression.length ≤ maxLength)
    (h : Sentence env expression tree) (hdepth : tree.merge.depth ≤ maxDepth) :
    parse expression env = .ok (some tree.merge) := by
  obtain ⟨rest, hderives, hblank⟩ := h
  have hruns : PhraseRuns env expression .or false tree expression rest := hderives.runs
  obtain ⟨kind, _, hafter, -, ⟨context, hat, hrun⟩, hsettled⟩ :=
    hruns none [] [] [] (by decide) (by rintro ⟨⟩) (.nil .or) (.start env expression)
  obtain ⟨lexer, stack', lastToken⟩ := context
  obtain ⟨-, hlast, hunclosed, rfl, rfl⟩ := hat
  cases lastToken with
  | none => cases hlast
  | some token =>
  have hkind : some token.kind = some kind := hlast
  have hopen : lexer.hasUnclosedTokens = false := by
    simpa [hasUnclosedTokens, unclosedKinds] using hunclosed
  have hflush : flushWhile expression env (some token.kind) 1 stack' = .ok ⟨[tree.merge], []⟩ :=
    hsettled.flushed .close (le_refl _) (by rintro _ ⟨⟩) _
  unfold parse
  rw [if_neg (by omega), hrun, pushTokens_of_blank hblank, ok_bind]
  unfold finish
  dsimp only
  rw [if_neg]
  · show (flushAll expression env (some token.kind) stack' >>= _) = _
    rw [flushAll_of_flushWhile hflush rfl]
    show (checkMaxDepth 1 tree.merge >>= _) = _
    rw [checkMaxDepth_eq, Within, if_pos (by omega)]
    rfl
  · rintro ⟨-, hend⟩
    rw [unexpectedLastToken_of_after (hkind ▸ hafter), hopen] at hend
    cases hend

theorem parse_blank (hlength : expression.length ≤ maxLength) (h : Blank expression) :
    parse expression env = .ok none := by
  have hblank : Blank (ParseContext.new expression).lexer.rest := h
  unfold parse
  rw [if_neg (by omega), pushTokens_of_blank hblank]
  rfl

/-- The parser accepts exactly the sentences of the grammar whose merged tree is
    not too deep, and returns that tree; for a blank expression it returns
    nothing. -/
theorem parse_exact (expression : Str) (env : ParseEnvironment) :
    (∀ node, parse expression env = .ok (some node) ↔
        expression.length ≤ maxLength ∧ ∃ tree, Sentence env expression tree
          ∧ node = tree.merge ∧ node.depth ≤ maxDepth)
      ∧ (parse expression env = .ok none ↔ expression.length ≤ maxLength ∧ Blank expression) := by
  refine ⟨fun node => ⟨fun h => ?_, ?_⟩, fun h => ?_, ?_⟩
  · obtain ⟨hlength, -, hsome⟩ := (parse_endsWell env expression).of_ok h
    exact ⟨hlength, hsome node rfl⟩
  · rintro ⟨hlength, _, hsentence, rfl, hdepth⟩
    exact parse_sentence hlength hsentence hdepth
  · obtain ⟨hlength, hnone, -⟩ := (parse_endsWell env expression).of_ok h
    exact ⟨hlength, hnone rfl⟩
  · rintro ⟨hlength, hblank⟩
    exact parse_blank hlength hblank

end

end Velnor.Expression
