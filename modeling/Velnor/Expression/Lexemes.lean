/-
  What the lexical analyzer reads, in the terms of the grammar.  `Reads` lists
  the tokens that are legal, each with the token it may follow and with what it
  does to the open brackets; the analyzer returns such a token or an unexpected
  one (`nextToken_reads`), and returns it whenever it is legal
  (`Reads.nextToken`).
-/
import Velnor.Expression.Grammar

namespace Velnor.Expression

open Text List

/-- A legal token as the parser uses it. -/
inductive Lexeme where
  | startGroup | startParameters | endGroup | endParameters | startIndex | endIndex
  | separator | dereference | wildcard | not
  | operator (op : Operator)
  | literal (value : Value)
  | propertyName (name : Str)
  | function (name : Str)
  | namedValue (name : Str)

def Value.kind : Value → TokenKind
  | null => .null
  | boolean _ => .boolean
  | number _ => .number
  | string _ => .string

namespace Lexeme

def kind : Lexeme → TokenKind
  | startGroup => .startGroup
  | startParameters => .startParameters
  | endGroup => .endGroup
  | endParameters => .endParameters
  | startIndex => .startIndex
  | endIndex => .endIndex
  | separator => .separator
  | dereference => .dereference
  | wildcard => .wildcard
  | not | operator _ => .logicalOperator
  | literal value => value.kind
  | propertyName _ => .propertyName
  | function _ => .function
  | namedValue _ => .namedValue

/-- The text of the token, where the parser looks at it. -/
def text : Lexeme → Option Str
  | not => some "!"
  | operator op => some op.text
  | propertyName name | function name | namedValue name => some name
  | _ => none

def value : Lexeme → Option Value
  | literal value => some value
  | _ => none

end Lexeme

structure Token.Is (token : Token) (lexeme : Lexeme) : Prop where
  kind : token.kind = lexeme.kind
  text : ∀ text ∈ lexeme.text, token.rawValue = text
  value : ∀ value ∈ lexeme.value, token.parsedValue = some value

/-- `Reads last unclosed s lexeme rest unclosed'`: behind a token of kind `last`
    and with the brackets `unclosed` open, the lexeme goes from `s` to `rest`
    and leaves the brackets `unclosed'` open. -/
inductive Reads (last : Option TokenKind) (unclosed : List TokenKind) (s : Str) :
    Lexeme → Str → List TokenKind → Prop where
  | startGroup {rest : Str} (hlast : last ∈ beforeOperand) (hs : Symbol '(' s rest) :
      Reads last unclosed s .startGroup rest (.startGroup :: unclosed)
  | startParameters {rest : Str} (hlast : last = some .function) (hs : Symbol '(' s rest) :
      Reads last unclosed s .startParameters rest (.startParameters :: unclosed)
  | startIndex {rest : Str} (hlast : last ∈ indexable) (hs : Symbol '[' s rest) :
      Reads last unclosed s .startIndex rest (.startIndex :: unclosed)
  | endGroup {rest : Str} {outer : List TokenKind} (hlast : last ∈ afterOperand)
      (hopen : unclosed = .startGroup :: outer) (hs : Symbol ')' s rest) :
      Reads last unclosed s .endGroup rest outer
  | endParameters {rest : Str} {outer : List TokenKind}
      (hlast : last = some .startParameters ∨ last ∈ afterOperand)
      (hopen : unclosed = .startParameters :: outer) (hs : Symbol ')' s rest) :
      Reads last unclosed s .endParameters rest outer
  | endIndex {rest : Str} {outer : List TokenKind} (hlast : last ∈ afterOperand)
      (hopen : unclosed = .startIndex :: outer) (hs : Symbol ']' s rest) :
      Reads last unclosed s .endIndex rest outer
  | separator {rest : Str} (hlast : last ∈ afterOperand)
      (hopen : unclosed.head? = some .startParameters) (hs : Symbol ',' s rest) :
      Reads last unclosed s .separator rest unclosed
  | dereference {rest : Str} (hlast : last ∈ indexable) (hs : Symbol '.' s rest) :
      Reads last unclosed s .dereference rest unclosed
  | wildcard {rest : Str} (hlast : last = some .startIndex ∨ last = some .dereference)
      (hs : Symbol '*' s rest) : Reads last unclosed s .wildcard rest unclosed
  | not {rest : Str} (hlast : last ∈ beforeOperand) (hs : Bang s rest) :
      Reads last unclosed s .not rest unclosed
  | operator {operator : Operator} {rest : Str} (hlast : last ∈ afterOperand)
      (hs : operator.Stands s rest) : Reads last unclosed s (.operator operator) rest unclosed
  | literal {value : Value} {rest : Str} (hlast : last ∈ beforeOperand)
      (hs : Literal value s rest) : Reads last unclosed s (.literal value) rest unclosed
  | propertyName {name rest : Str} (hlast : last = some .dereference)
      (hs : Word name s rest) : Reads last unclosed s (.propertyName name) rest unclosed
  | function {name rest : Str} (hlast : last ∈ beforeOperand) (hs : Word name s rest)
      (hfree : LexicalAnalyzer.keywordLiteral name = none)
      (hcall : (trimStart rest).head? = some '(') :
      Reads last unclosed s (.function name) rest unclosed
  | namedValue {name rest : Str} (hlast : last ∈ beforeOperand) (hs : Word name s rest)
      (hfree : LexicalAnalyzer.keywordLiteral name = none)
      (hcall : (trimStart rest).head? ≠ some '(') :
      Reads last unclosed s (.namedValue name) rest unclosed

/-! ## The table -/

theorem last_ne_of_beforeOperand {last other : Option TokenKind} (h : last ∈ beforeOperand)
    (hother : other ∉ beforeOperand) : last ≠ other := by
  rintro rfl
  exact hother h

theorem not_beforeOperand_of_indexable : ∀ last ∈ indexable, last ∉ beforeOperand := by
  decide

theorem operator_text_ne_bang (operator : Operator) : operator.text ≠ "!" := by
  cases operator with
  | compare comparison => cases comparison <;> decide
  | _ => decide

/-! ## Making a token -/

namespace LexicalAnalyzer

variable {lexer : LexicalAnalyzer} {kind : TokenKind} {n : Nat} {value : Option Value}

def unclosedKinds (lexer : LexicalAnalyzer) : List TokenKind := lexer.unclosedTokens.map (·.kind)

/-- The open brackets behind a token of the kind, if they allow it. -/
def bracketsBehind (kind : TokenKind) (unclosed : List TokenKind) : Option (List TokenKind) :=
  match kind with
  | .startGroup | .startIndex | .startParameters => some (kind :: unclosed)
  | .endGroup | .endIndex | .endParameters =>
    if unclosed.head? = opening kind then some unclosed.tail else none
  | .separator => if unclosed.head? = some .startParameters then some unclosed else none
  | _ => some unclosed

theorem peekUnclosed_eq : lexer.peekUnclosed = lexer.unclosedKinds.head? := by
  simp [peekUnclosed, unclosedKinds]

/-- A token the table and the brackets allow is made. -/
theorem createToken_of_legal (lexer : LexicalAnalyzer) (value : Option Value)
    {unclosed : List TokenKind} (hlegal : isLegal lexer.lastKind kind (lexer.rest.take n) = true)
    (hbrackets : bracketsBehind kind lexer.unclosedKinds = some unclosed) :
    (lexer.createToken kind n value).1 = ⟨kind, lexer.rest.take n, lexer.index, value⟩
      ∧ (lexer.createToken kind n value).2.unclosedKinds = unclosed := by
  simp only [createToken, hlegal, Bool.true_eq_false, if_false, peekUnclosed_eq]
  cases kind <;>
    simp only [bracketsBehind, Option.ite_none_right_eq_some, Option.some.injEq] at hbrackets ⊢
  all_goals
    first
      | (subst hbrackets
         exact ⟨trivial, rfl⟩)
      | (obtain ⟨hopen, rfl⟩ := hbrackets
         rw [if_neg (not_not_intro hopen)]
         simp [unclosedKinds, advance])

/-- Every other token is unexpected. -/
theorem legal_of_createToken (h : (lexer.createToken kind n value).1.kind ≠ .unexpected) :
    isLegal lexer.lastKind kind (lexer.rest.take n) = true
      ∧ ∃ unclosed, bracketsBehind kind lexer.unclosedKinds = some unclosed := by
  simp only [createToken] at h
  split at h
  · exact absurd rfl h
  rename_i hlegal
  refine ⟨by simpa using hlegal, ?_⟩
  cases kind <;> simp only [peekUnclosed_eq] at h <;> simp only [bracketsBehind]
  all_goals
    first
      | exact ⟨_, rfl⟩
      | (split at h
         · exact absurd rfl h
         · next hopen => exact ⟨_, if_pos (not_not.mp hopen)⟩)

/-! ## The next token -/

theorem skipWhitespace_rest : lexer.skipWhitespace.rest = trimStart lexer.rest :=
  drop_length_takeWhile isWhitespace lexer.rest

theorem nextToken_eq_none_iff : lexer.nextToken = none ↔ Blank lexer.rest := by
  unfold nextToken Blank
  rw [← skipWhitespace_rest]
  dsimp only
  split <;> next h => simp [h]

theorem nextToken_eq {c : Char} {s : Str} (h : trimStart lexer.rest = c :: s) :
    lexer.nextToken = some ((lexer.skipWhitespace.readToken c).1,
      { (lexer.skipWhitespace.readToken c).2 with
        lastToken := some (lexer.skipWhitespace.readToken c).1 }) := by
  rw [← skipWhitespace_rest] at h
  unfold nextToken
  dsimp only
  split
  · next hnil => rw [hnil] at h; cases h
  · next c' s' hcons => rw [hcons] at h; cases h; rfl

variable {token : Token} {behind : LexicalAnalyzer} {w : Str}

theorem nextToken_lastToken (h : lexer.nextToken = some (token, behind)) :
    behind.lastToken = some token := by
  cases hs : trimStart lexer.rest with
  | nil =>
    rw [nextToken_eq_none_iff.mpr hs] at h
    cases h
  | cons =>
    rw [nextToken_eq hs] at h
    cases h
    rfl

/-- The lexeme is what comes next. -/
def Yields (lexer : LexicalAnalyzer) (lexeme : Lexeme) (rest : Str)
    (unclosed : List TokenKind) : Prop :=
  ∃ token behind, lexer.nextToken = some (token, behind) ∧ token.Is lexeme ∧ behind.rest = rest
    ∧ behind.unclosedKinds = unclosed ∧ behind.lastToken = some token

variable {c : Char} {s : Str}

/-- The token at the character is made from so many characters, if it is allowed. -/
def Makes (lexer : LexicalAnalyzer) (c : Char) (kind : TokenKind) (n : Nat) (value : Option Value) :
    Prop :=
  lexer.skipWhitespace.readToken c = lexer.skipWhitespace.createToken kind n value

/-- A token that is made as the lexeme says is the lexeme. -/
theorem yields_of_makes (lexeme : Lexeme) {unclosed : List TokenKind}
    (hs : trimStart lexer.rest = c :: s) (hread : lexer.Makes c kind n value)
    (hlegal : isLegal lexer.lastKind kind ((c :: s).take n) = true)
    (hbrackets : bracketsBehind kind lexer.unclosedKinds = some unclosed)
    (hkind : kind = lexeme.kind := by rfl)
    (htext : ∀ text ∈ lexeme.text, (c :: s).take n = text := by rintro _ ⟨⟩ <;> rfl)
    (hvalue : ∀ v ∈ lexeme.value, value = some v := by rintro _ ⟨⟩ <;> rfl) :
    lexer.Yields lexeme ((c :: s).drop n) unclosed := by
  rw [← hs, ← skipWhitespace_rest] at hlegal htext ⊢
  obtain ⟨htoken, hunclosed⟩ := createToken_of_legal lexer.skipWhitespace value hlegal hbrackets
  refine ⟨_, _, nextToken_eq hs, ?_, ?_, ?_, rfl⟩
  · rw [hread, htoken]
    exact ⟨hkind, htext, hvalue⟩
  · rw [hread]
    exact createToken_rest _ _ _
  · rw [hread]
    exact hunclosed

/-- A token that is not unexpected was allowed. -/
theorem legal_of_makes (hs : trimStart lexer.rest = c :: s)
    (hnext : lexer.nextToken = some (token, behind)) (hread : lexer.Makes c kind n value)
    (hexpected : token.kind ≠ .unexpected) :
    isLegal lexer.lastKind kind ((c :: s).take n) = true
      ∧ bracketsBehind kind lexer.unclosedKinds = some behind.unclosedKinds
      ∧ token = ⟨kind, (c :: s).take n, lexer.skipWhitespace.index, value⟩
      ∧ behind.rest = (c :: s).drop n := by
  rw [nextToken_eq hs, hread] at hnext
  cases Option.some.inj hnext
  obtain ⟨hlegal, _, hbrackets⟩ := legal_of_createToken hexpected
  obtain ⟨htoken, hunclosed⟩ := createToken_of_legal lexer.skipWhitespace value hlegal hbrackets
  rw [← hs, ← skipWhitespace_rest]
  refine ⟨hlegal, ?_, htoken, createToken_rest _ _ _⟩
  exact hbrackets.trans (congrArg some hunclosed.symm)

/-! ## Words -/

def startsWord (c : Char) : Bool := c.isAlpha || c == '_'

def continuesWord (c : Char) : Bool := c.isAlphanum || c == '_' || c == '-'

theorem isLegalKeyword_cons :
    isLegalKeyword (c :: w) = true ↔ startsWord c = true ∧ ∀ d ∈ w, continuesWord d = true := by
  simp only [isLegalKeyword, startsWord, continuesWord, Bool.and_eq_true, all_eq_true]

theorem isTokenBoundary_of_continuesWord (h : continuesWord c = true) :
    isTokenBoundary c = false := by
  have hmem : c ∉ boundaryCharacters := by
    have hall : boundaryCharacters.all (fun d => !continuesWord d) = true := by decide
    intro hc
    simpa [h] using all_eq_true.mp hall c hc
  have hspace : isWhitespace c = false := by
    simp only [continuesWord, Char.isAlphanum, Bool.or_eq_true, isAlpha_iff, isDigit_iff,
      beq_iff_eq] at h
    rcases h with (h | rfl) | rfl
    · simp only [isWhitespace, Bool.or_eq_false_iff, Bool.and_eq_false_iff,
        decide_eq_false_iff_not, beq_eq_false_iff_ne]
      omega
    · decide
    · decide
  simp [isTokenBoundary, hmem, hspace]

theorem not_isDigit_of_startsWord (h : startsWord c = true) : c.isDigit = false := by
  simp only [startsWord, Bool.or_eq_true, isAlpha_iff, beq_iff_eq] at h
  rcases h with h | rfl
  · rw [Bool.eq_false_iff, ne_eq, isDigit_iff]
    omega
  · decide

/-- The reading of a keyword, with the word and its length written out. -/
theorem readKeywordToken_eq {n : Nat} (hs : lexer.rest = c :: s)
    (hw : w = c :: s.takeWhile (fun d => !isTokenBoundary d))
    (hn : n = 1 + (s.takeWhile (fun d => !isTokenBoundary d)).length) :
    lexer.readKeywordToken =
      if isLegalKeyword w = false then lexer.createToken .unexpected n none
      else if lexer.lastKind = some .dereference then lexer.createToken .propertyName n none
      else
        match keywordLiteral w with
        | some (kind, value) => lexer.createToken kind n (some value)
        | none =>
          if (trimStart (s.dropWhile fun d => !isTokenBoundary d)).head? = some '(' then
            lexer.createToken .function n none
          else lexer.createToken .namedValue n none := by
  subst hn
  rw [hw, ← take_one_add_run, ← drop_one_add_run _ c s]
  unfold readKeywordToken
  rw [hs]
  rfl

/-- The characters that make a token of their own, and with them those that
    start a string or an operator. -/
def symbols : Str := ['(', '[', ')', ']', ',', '*', '.']

def signs : Str := symbols ++ ['\'', '!', '>', '<', '=', '&', '|']

theorem readToken_of_not_sign (h : c ∉ signs) :
    lexer.readToken c = if c = '-' ∨ c = '+' ∨ c.isDigit then lexer.readNumberToken
      else lexer.readKeywordToken := by
  simp only [signs, symbols, cons_append, nil_append, mem_cons, not_or] at h
  simp [readToken, h]

theorem not_sign_of_all {p : Char → Bool} (h : p c = true)
    (hall : signs.all (fun d => !p d) = true) : c ∉ signs := by
  intro hc
  simpa [h] using all_eq_true.mp hall c hc

theorem readToken_of_startsWord (h : startsWord c = true) :
    lexer.readToken c = lexer.readKeywordToken := by
  have hne : ∀ d, startsWord d = false → c ≠ d := by
    rintro _ hd rfl
    rw [h] at hd
    cases hd
  rw [readToken_of_not_sign (not_sign_of_all h (by decide))]
  rw [not_isDigit_of_startsWord h]
  simp [hne '-' (by decide), hne '+' (by decide)]

/-- The word at the beginning of the input, and what is behind it. -/
theorem word_iff {rest : Str} (hs : trimStart lexer.rest = c :: s) :
    Word w lexer.rest rest ↔
      w = c :: s.takeWhile (fun d => !isTokenBoundary d)
        ∧ rest = s.dropWhile (fun d => !isTokenBoundary d) ∧ isLegalKeyword w = true := by
  unfold Word
  rw [hs]
  constructor
  · rintro ⟨hsplit, hlegal, hstop⟩
    cases w with
    | nil => cases hlegal
    | cons d w =>
      rw [cons_append] at hsplit
      cases hsplit
      have hrun : ∀ d ∈ w, (!isTokenBoundary d) = true := fun d hd => by
        rw [isTokenBoundary_of_continuesWord ((isLegalKeyword_cons.mp hlegal).2 d hd)]
        rfl
      have hstop' : ∀ d ∈ rest.head?, (!isTokenBoundary d) = false := fun d hd => by
        rw [hstop d hd]
        rfl
      rw [takeWhile_append_stop hrun hstop', dropWhile_append_of_pos hrun, dropWhile_eq_self hstop']
      exact ⟨rfl, rfl, hlegal⟩
  · rintro ⟨rfl, rfl, hlegal⟩
    refine ⟨?_, hlegal, fun d hd => ?_⟩
    · rw [cons_append, takeWhile_append_dropWhile]
    · simpa using head?_dropWhile_stops _ _ d hd

/-- A word at the beginning of the input is read whole. -/
theorem readToken_of_word {rest : Str} (hword : Word w lexer.rest rest) :
    ∃ c s n, trimStart lexer.rest = c :: s ∧ (c :: s).take n = w ∧ (c :: s).drop n = rest
      ∧ lexer.skipWhitespace.readToken c =
        if lexer.lastKind = some .dereference then
          lexer.skipWhitespace.createToken .propertyName n none
        else
          match keywordLiteral w with
          | some (kind, value) => lexer.skipWhitespace.createToken kind n (some value)
          | none =>
            if (trimStart rest).head? = some '(' then
              lexer.skipWhitespace.createToken .function n none
            else lexer.skipWhitespace.createToken .namedValue n none := by
  have hlegal := hword.2.1
  cases hs : trimStart lexer.rest with
  | nil =>
    have hnil := hword.1
    rw [hs] at hnil
    rw [(append_eq_nil_iff.mp hnil.symm).1] at hlegal
    cases hlegal
  | cons c s =>
    obtain ⟨hw, hrest, -⟩ := (word_iff hs).mp hword
    refine ⟨c, s, 1 + (s.takeWhile fun d => !isTokenBoundary d).length, rfl, ?_, ?_, ?_⟩
    · rw [take_one_add_run, hw]
    · rw [drop_one_add_run, hrest]
    · have hstart : startsWord c = true := by
        rw [hw] at hlegal
        exact (isLegalKeyword_cons.mp hlegal).1
      rw [readToken_of_startsWord hstart,
        readKeywordToken_eq (skipWhitespace_rest.trans hs) hw rfl, if_neg (by simp [hlegal]),
        hrest]
      rfl

theorem keywordLiteral_kind {value : Value} (h : keywordLiteral w = some (kind, value)) :
    kind = value.kind := by
  unfold keywordLiteral at h
  split_ifs at h <;> cases h <;> rfl

/-! ## Strings -/

theorem readStringBody_quoted {rest : Str} (hrest : rest.head? ≠ some '\'')
    (value : Str) :
    readStringBody (quoted value ++ '\'' :: rest) = (value, (quoted value).length + 1, true) := by
  induction value with
  | nil =>
    cases rest with
    | nil => rfl
    | cons d =>
      have hd : d ≠ '\'' := fun h => hrest (congrArg some h)
      simp [quoted, readStringBody, hd]
  | cons d value ih =>
    by_cases hd : d = '\''
    · subst hd
      have hquoted : quoted ('\'' :: value) = '\'' :: '\'' :: quoted value := rfl
      rw [hquoted, cons_append, cons_append, readStringBody, ih]
      rfl
    · have hquoted : quoted (d :: value) = d :: quoted value := by simp [quoted, hd]
      rw [hquoted, cons_append, readStringBody, ih]
      · rfl
      · simp [hd]
      · simp [hd]

/-- A string that is closed is a value in quotes. -/
theorem readStringBody_closed {text value : Str} {length : Nat}
    (h : readStringBody text = (value, length, true)) :
    ∃ rest, text = quoted value ++ '\'' :: rest ∧ rest.head? ≠ some '\''
      ∧ length = (quoted value).length + 1 := by
  fun_induction readStringBody text generalizing value length with
  | case1 => cases h
  | case2 _ _ _ _ hbody ih =>
    cases h
    obtain ⟨rest, rfl, hrest, rfl⟩ := ih hbody
    exact ⟨rest, rfl, hrest, rfl⟩
  | case3 text hnext =>
    cases h
    refine ⟨text, rfl, ?_, rfl⟩
    intro hhead
    cases text with
    | nil => cases hhead
    | cons _ text => exact hnext text (by rw [Option.some.inj hhead])
  | case4 d _ _ hd _ _ _ hbody ih =>
    cases h
    obtain ⟨rest, rfl, hrest, rfl⟩ := ih hbody
    have hne : d ≠ '\'' := fun hd' => hd hd'
    refine ⟨rest, ?_, hrest, ?_⟩ <;> simp [quoted, hne]

/-! ## Numbers and operators -/

theorem readToken_of_startsNumber (h : startsNumber c = true)
    (hlast : lexer.lastKind ∈ beforeOperand) : lexer.readToken c = lexer.readNumberToken := by
  simp only [startsNumber, Bool.or_eq_true, beq_iff_eq] at h
  rcases h with ((rfl | rfl) | rfl) | hdigit
  · exact if_pos hlast
  · rfl
  · rfl
  · rw [readToken_of_not_sign (not_sign_of_all hdigit (by decide)), if_pos (.inr (.inr hdigit))]

theorem readNumberToken_eq (hs : lexer.rest = c :: s) :
    lexer.readNumberToken =
      if parseNumber (c :: s.takeWhile continuesNumber) = .nan then
        lexer.createToken .unexpected (1 + (s.takeWhile continuesNumber).length) none
      else lexer.createToken .number (1 + (s.takeWhile continuesNumber).length)
        (some (.number (parseNumber (c :: s.takeWhile continuesNumber)))) := by
  rw [← take_one_add_run]
  unfold readNumberToken
  rw [hs]
  rfl

theorem readOperator_one {a : Char} (hs : lexer.rest = a :: s)
    (hmem : [a] ∈ oneCharacterOperators) (hnext : s.head? ≠ some '=') :
    lexer.readOperator = lexer.createToken .logicalOperator 1 none := by
  unfold readOperator
  rw [hs, if_neg]
  · exact if_pos hmem
  rintro ⟨-, htwo⟩
  -- the three signs are the beginnings of two-character operators that end in "="
  cases s with
  | nil => simp [twoCharacterOperators] at htwo
  | cons b =>
    have hb : b ≠ '=' := fun h => hnext (congrArg some h)
    have ha : a = '!' ∨ a = '>' ∨ a = '<' := by simpa [oneCharacterOperators] using hmem
    rcases ha with rfl | rfl | rfl <;> simp [twoCharacterOperators, hb] at htwo

theorem readToken_of_operatorStart (h : c ∈ ['!', '>', '<', '=', '&', '|']) :
    lexer.readToken c = lexer.readOperator := by
  simp only [mem_cons, not_mem_nil, or_false] at h
  rcases h with rfl | rfl | rfl | rfl | rfl | rfl <;> rfl

theorem operator_text_cases (operator : Operator) :
    (∃ a b, operator.text = [a, b] ∧ [a, b] ∈ twoCharacterOperators
        ∧ a ∈ ['!', '>', '<', '=', '&', '|'])
      ∨ ∃ a, operator.text = [a] ∧ [a] ∈ oneCharacterOperators
        ∧ a ∈ ['!', '>', '<', '=', '&', '|'] := by
  cases operator with
  | compare comparison =>
    cases comparison with
    | greaterThan => exact .inr ⟨'>', rfl, by decide, by decide⟩
    | lessThan => exact .inr ⟨'<', rfl, by decide, by decide⟩
    | _ => exact .inl ⟨_, _, rfl, by decide, by decide⟩
  | _ => exact .inl ⟨_, _, rfl, by decide, by decide⟩

theorem operator_of_two {raw : Str} (h : raw ∈ twoCharacterOperators) :
    ∃ operator : Operator, operator.text = raw := by
  simp only [twoCharacterOperators, mem_cons, not_mem_nil, or_false] at h
  rcases h with rfl | rfl | rfl | rfl | rfl | rfl
  · exact ⟨.compare .notEqual, rfl⟩
  · exact ⟨.compare .greaterThanOrEqual, rfl⟩
  · exact ⟨.compare .lessThanOrEqual, rfl⟩
  · exact ⟨.compare .equal, rfl⟩
  · exact ⟨.and, rfl⟩
  · exact ⟨.or, rfl⟩

/-- The operator at the beginning of the input is read whole. -/
theorem readToken_of_stands {operator : Operator} {rest : Str}
    (hs : operator.Stands lexer.rest rest) :
    ∃ c s, trimStart lexer.rest = c :: s
      ∧ lexer.Makes c .logicalOperator operator.text.length none
      ∧ (c :: s).take operator.text.length = operator.text
      ∧ (c :: s).drop operator.text.length = rest := by
  obtain ⟨hs, hone⟩ := hs
  obtain ⟨a, b, htext, hmem, hstart⟩ | ⟨a, htext, hmem, hstart⟩ := operator_text_cases operator
  · rw [htext] at hs ⊢
    have hskip := skipWhitespace_rest.trans hs
    refine ⟨a, b :: rest, hs, (readToken_of_operatorStart hstart).trans ?_, rfl, rfl⟩
    rw [readOperator, hskip]
    exact if_pos ⟨by simp, hmem⟩
  · rw [htext] at hs hone ⊢
    have hskip := skipWhitespace_rest.trans hs
    exact ⟨a, rest, hs,
      (readToken_of_operatorStart hstart).trans (readOperator_one hskip hmem (hone rfl)), rfl, rfl⟩

/-! ## Legal tokens are read -/

variable {lexeme : Lexeme} {rest : Str} {unclosed : List TokenKind}

/-- What a round bracket is depends on what is in front of it. -/
theorem makes_open : lexer.Makes '('
    (if lexer.lastKind = some .function then .startParameters else .startGroup) 1 none := rfl

theorem makes_close : lexer.Makes ')'
    (if lexer.unclosedKinds.head? = some .startParameters then .endParameters else .endGroup) 1
    none := by
  rw [← peekUnclosed_eq]
  rfl

theorem yields_of_literal {value : Value} (hlast : lexer.lastKind ∈ beforeOperand)
    (hs : Literal value lexer.rest rest) :
    lexer.Yields (.literal value) rest lexer.unclosedKinds := by
  have hlegal : ∀ (v : Value) raw, isLegal lexer.lastKind v.kind raw = true := by
    intro v _
    cases v <;> exact decide_eq_true hlast
  have hbrackets : ∀ v : Value,
      bracketsBehind v.kind lexer.unclosedKinds = some lexer.unclosedKinds := by
    intro v
    cases v <;> rfl
  cases hs with
  | @number c digits _ _ hs hc hdigits hrest hnumber =>
    rw [cons_append] at hs
    have hrun : (digits ++ rest).takeWhile continuesNumber = digits :=
      takeWhile_append_stop hdigits hrest
    have hdrop := drop_one_add_run continuesNumber c (digits ++ rest)
    rw [dropWhile_append_of_pos hdigits, dropWhile_eq_self hrest] at hdrop
    have hread : lexer.skipWhitespace.readToken c = lexer.skipWhitespace.readNumberToken :=
      readToken_of_startsNumber hc hlast
    rw [readNumberToken_eq (skipWhitespace_rest.trans hs), hrun, if_neg hnumber] at hread
    rw [← hdrop, hrun]
    exact yields_of_makes (.literal _) hs hread (hlegal (.number .nan) _) (hbrackets (.number .nan))
  | @string value _ _ hs hrest =>
    have hread : lexer.Makes '\'' .string (1 + ((quoted value).length + 1))
        (some (.string value)) := by
      show lexer.skipWhitespace.readStringToken = _
      unfold readStringToken
      rw [skipWhitespace_rest, hs, tail_cons, readStringBody_quoted hrest value]
      rfl
    have hdrop : ('\'' :: (quoted value ++ '\'' :: rest)).drop (1 + ((quoted value).length + 1))
        = rest := by
      rw [Nat.add_comm, drop_succ_cons, ← drop_drop, drop_left]
      rfl
    rw [← hdrop]
    exact yields_of_makes (.literal _) hs hread (hlegal (.string []) _) (hbrackets (.string []))
  | @word _ _ _ _ _ hword hvalue =>
    obtain ⟨_, _, _, hs, -, rfl, hread⟩ := readToken_of_word hword
    rw [if_neg (last_ne_of_beforeOperand hlast (by decide)), hvalue] at hread
    obtain rfl := keywordLiteral_kind hvalue
    exact yields_of_makes (.literal _) hs hread (hlegal value _) (hbrackets value)

/-- A legal token is read. -/
theorem yields_of_reads
    (h : Reads lexer.lastKind lexer.unclosedKinds lexer.rest lexeme rest unclosed) :
    lexer.Yields lexeme rest unclosed := by
  cases h with
  | startGroup hlast hs =>
    have hread := lexer.makes_open
    rw [if_neg (last_ne_of_beforeOperand hlast (by decide))] at hread
    exact yields_of_makes .startGroup hs hread (decide_eq_true hlast) rfl
  | startParameters hlast hs =>
    have hread := lexer.makes_open
    rw [if_pos hlast] at hread
    exact yields_of_makes .startParameters hs hread (decide_eq_true hlast) rfl
  | startIndex hlast hs => exact yields_of_makes .startIndex hs rfl (decide_eq_true hlast) rfl
  | endGroup hlast hopen hs =>
    have hread := lexer.makes_close
    rw [hopen] at hread
    exact yields_of_makes .endGroup hs hread (decide_eq_true hlast) (by rw [hopen]; rfl)
  | endParameters hlast hopen hs =>
    have hread := lexer.makes_close
    rw [hopen] at hread
    exact yields_of_makes .endParameters hs hread
      ((Bool.or_eq_true _ _).mpr (hlast.imp decide_eq_true decide_eq_true)) (by rw [hopen]; rfl)
  | endIndex hlast hopen hs =>
    exact yields_of_makes .endIndex hs rfl (decide_eq_true hlast) (by rw [hopen]; rfl)
  | separator hlast hopen hs =>
    exact yields_of_makes .separator hs rfl (decide_eq_true hlast) (if_pos hopen)
  | dereference hlast hs =>
    exact yields_of_makes .dereference hs (if_neg (not_beforeOperand_of_indexable _ hlast))
      (decide_eq_true hlast) rfl
  | wildcard hlast hs =>
    exact yields_of_makes .wildcard hs rfl
      ((Bool.or_eq_true _ _).mpr (hlast.imp decide_eq_true decide_eq_true)) rfl
  | not hlast hs =>
    exact yields_of_makes .not hs.1
      (readOperator_one (skipWhitespace_rest.trans hs.1) (by decide) hs.2)
        (decide_eq_true hlast) rfl
  | @operator operator _ hlast hs =>
    obtain ⟨_, _, hs', hread, htake, rfl⟩ := readToken_of_stands hs
    refine yields_of_makes _ hs' hread ?_ rfl rfl (by rintro _ ⟨⟩; exact htake)
    rw [htake]
    exact (if_neg (operator_text_ne_bang operator)).trans (decide_eq_true hlast)
  | literal hlast hs => exact yields_of_literal hlast hs
  | propertyName hlast hs =>
    obtain ⟨_, _, _, hs', rfl, rfl, hread⟩ := readToken_of_word hs
    rw [if_pos hlast] at hread
    exact yields_of_makes _ hs' hread (decide_eq_true hlast) rfl
  | function hlast hs hfree hcall =>
    obtain ⟨_, _, _, hs', rfl, rfl, hread⟩ := readToken_of_word hs
    rw [if_neg (last_ne_of_beforeOperand hlast (by decide)), hfree] at hread
    exact yields_of_makes _ hs' (hread.trans (if_pos hcall)) (decide_eq_true hlast) rfl
  | namedValue hlast hs hfree hcall =>
    obtain ⟨_, _, _, hs', rfl, rfl, hread⟩ := readToken_of_word hs
    rw [if_neg (last_ne_of_beforeOperand hlast (by decide)), hfree] at hread
    exact yields_of_makes _ hs' (hread.trans (if_neg hcall)) (decide_eq_true hlast) rfl

/-! ## Tokens that are read are legal -/

theorem brackets_of_close {open_ : TokenKind} {unclosed outer : List TokenKind}
    (h : (if unclosed.head? = some open_ then some unclosed.tail else none) = some outer) :
    unclosed = open_ :: outer := by
  split at h
  · rename_i hhead
    cases unclosed with
    | nil => cases hhead
    | cons =>
      cases hhead
      cases h
      rfl
  · cases h

section

/-- What comes next is a legal token. -/
def ReadsNext (lexer : LexicalAnalyzer) (token : Token) (behind : LexicalAnalyzer) : Prop :=
  ∃ lexeme, Reads lexer.lastKind lexer.unclosedKinds lexer.rest lexeme behind.rest
    behind.unclosedKinds ∧ token.Is lexeme

variable (hs : trimStart lexer.rest = c :: s) (hnext : lexer.nextToken = some (token, behind))
  (hexpected : token.kind ≠ .unexpected)

include hs hnext hexpected

/-- A token that is made as the lexeme says is a legal one if it is allowed. -/
theorem readsNext_of_makes (lexeme : Lexeme) (hread : lexer.Makes c lexeme.kind n value)
    (hreads : isLegal lexer.lastKind lexeme.kind ((c :: s).take n) = true → ∀ unclosed,
      bracketsBehind lexeme.kind lexer.unclosedKinds = some unclosed →
      Reads lexer.lastKind lexer.unclosedKinds lexer.rest lexeme ((c :: s).drop n) unclosed)
    (htext : ∀ text ∈ lexeme.text, (c :: s).take n = text := by rintro _ ⟨⟩ <;> rfl)
    (hvalue : ∀ v ∈ lexeme.value, value = some v := by rintro _ ⟨⟩ <;> rfl) :
    lexer.ReadsNext token behind := by
  obtain ⟨hlegal, hbrackets, rfl, hrest⟩ := legal_of_makes hs hnext hread hexpected
  exact ⟨lexeme, hrest ▸ hreads hlegal _ hbrackets, rfl, htext, hvalue⟩

theorem readsNext_number (hc : startsNumber c = true)
    (hread : lexer.skipWhitespace.readToken c = lexer.skipWhitespace.readNumberToken) :
    lexer.ReadsNext token behind := by
  rw [readNumberToken_eq (skipWhitespace_rest.trans hs)] at hread
  split at hread
  · cases (legal_of_makes hs hnext hread hexpected).1
  rename_i hnumber
  refine readsNext_of_makes hs hnext hexpected (.literal (.number _)) hread ?_
  rintro hlegal _ ⟨⟩
  rw [drop_one_add_run]
  refine .literal (of_decide_eq_true hlegal) (.number ?_ hc (fun _ => mem_takeWhile_imp)
    (head?_dropWhile_stops continuesNumber s) hnumber)
  rw [hs, cons_append, takeWhile_append_dropWhile]

theorem readsNext_string (hc : c = '\'') : lexer.ReadsNext token behind := by
  subst hc
  have hread : lexer.skipWhitespace.readToken '\'' = lexer.skipWhitespace.readStringToken := rfl
  unfold readStringToken at hread
  rw [skipWhitespace_rest, hs, tail_cons] at hread
  rcases hbody : readStringBody s with ⟨value, _, closed⟩
  rw [hbody] at hread
  dsimp only at hread
  cases closed with
  | false =>
    rw [if_neg Bool.false_ne_true] at hread
    cases (legal_of_makes hs hnext hread hexpected).1
  | true =>
    obtain ⟨_, rfl, hstop, rfl⟩ := readStringBody_closed hbody
    refine readsNext_of_makes hs hnext hexpected (.literal (.string value)) hread ?_
    rintro hlegal _ ⟨⟩
    rw [Nat.add_comm, drop_succ_cons, ← drop_drop, drop_left]
    exact .literal (of_decide_eq_true hlegal) (.string hs hstop)

theorem readsNext_word
    (hread : lexer.skipWhitespace.readToken c = lexer.skipWhitespace.readKeywordToken) :
    lexer.ReadsNext token behind := by
  rw [readKeywordToken_eq (skipWhitespace_rest.trans hs) rfl rfl] at hread
  split at hread
  · cases (legal_of_makes hs hnext hread hexpected).1
  next hlegal =>
  have hword := (word_iff hs).mpr ⟨rfl, rfl, by simpa using hlegal⟩
  have htext := take_one_add_run (fun d => !isTokenBoundary d) c s
  rw [← drop_one_add_run _ c s] at hword hread
  split at hread
  · rename_i hlast
    refine readsNext_of_makes hs hnext hexpected (.propertyName _) hread ?_
      (by rintro _ ⟨⟩; exact htext)
    rintro - _ ⟨⟩
    exact .propertyName hlast hword
  split at hread
  · rename_i value hvalue
    obtain rfl := keywordLiteral_kind hvalue
    refine readsNext_of_makes hs hnext hexpected (.literal value) hread ?_
    cases value <;> rintro hlegal _ ⟨⟩ <;>
      exact .literal (of_decide_eq_true hlegal) (.word hword hvalue)
  rename_i hfree
  split at hread
  · refine readsNext_of_makes hs hnext hexpected (.function _) hread ?_
      (by rintro _ ⟨⟩; exact htext)
    rintro hlegal _ ⟨⟩
    exact .function (of_decide_eq_true hlegal) hword hfree ‹_›
  · refine readsNext_of_makes hs hnext hexpected (.namedValue _) hread ?_
      (by rintro _ ⟨⟩; exact htext)
    rintro hlegal _ ⟨⟩
    exact .namedValue (of_decide_eq_true hlegal) hword hfree ‹_›

theorem readsNext_operator (hc : c ∈ ['!', '>', '<', '=', '&', '|']) :
    lexer.ReadsNext token behind := by
  have hread : lexer.skipWhitespace.readToken c = lexer.skipWhitespace.readOperator :=
    readToken_of_operatorStart hc
  unfold readOperator at hread
  rw [skipWhitespace_rest, hs] at hread
  split at hread
  · rename_i htwo
    obtain ⟨operator, htext⟩ := operator_of_two htwo.2
    refine readsNext_of_makes hs hnext hexpected (.operator operator) hread ?_
      (by rintro _ ⟨⟩; exact htext.symm)
    rintro hlegal _ ⟨⟩
    rw [← htext] at hlegal
    refine .operator (of_decide_eq_true ?_) ⟨?_, fun hone => ?_⟩
    · exact (if_neg (operator_text_ne_bang operator)).symm.trans hlegal
    · rw [hs, htext, take_append_drop]
    · rw [htext, length_take] at hone
      omega
  rename_i htwo
  split at hread
  · next hone =>
      have hc : c = '!' ∨ c = '>' ∨ c = '<' := by simpa [oneCharacterOperators] using hone
      have hstop : s.head? ≠ some '=' := by
        intro hhead
        cases s with
        | nil => cases hhead
        | cons =>
          cases hhead
          rcases hc with rfl | rfl | rfl <;> exact htwo ⟨by simp, by simp [twoCharacterOperators]⟩
      rcases hc with rfl | rfl | rfl
      · refine readsNext_of_makes hs hnext hexpected .not hread ?_
        rintro hlegal _ ⟨⟩
        exact .not (of_decide_eq_true hlegal) ⟨hs, hstop⟩
      · refine readsNext_of_makes hs hnext hexpected (.operator (.compare .greaterThan)) hread ?_
        rintro hlegal _ ⟨⟩
        exact .operator (of_decide_eq_true hlegal) ⟨hs, fun _ => hstop⟩
      · refine readsNext_of_makes hs hnext hexpected (.operator (.compare .lessThan)) hread ?_
        rintro hlegal _ ⟨⟩
        exact .operator (of_decide_eq_true hlegal) ⟨hs, fun _ => hstop⟩
  · cases (legal_of_makes hs hnext hread hexpected).1

theorem readsNext_symbol (hc : c ∈ symbols) : lexer.ReadsNext token behind := by
  simp only [symbols, mem_cons, not_mem_nil, or_false] at hc
  rcases hc with rfl | rfl | rfl | rfl | rfl | rfl | rfl
  · have hread := lexer.makes_open
    split at hread
    · refine readsNext_of_makes hs hnext hexpected .startParameters hread ?_
      rintro - _ ⟨⟩
      exact .startParameters ‹_› hs
    · refine readsNext_of_makes hs hnext hexpected .startGroup hread ?_
      rintro hlegal _ ⟨⟩
      exact .startGroup (of_decide_eq_true hlegal) hs
  · refine readsNext_of_makes hs hnext hexpected .startIndex rfl ?_
    rintro hlegal _ ⟨⟩
    exact .startIndex (of_decide_eq_true hlegal) hs
  · have hread := lexer.makes_close
    split at hread
    · refine readsNext_of_makes hs hnext hexpected .endParameters hread
        fun hlegal _ hbrackets => .endParameters ?_ (brackets_of_close hbrackets) hs
      exact ((Bool.or_eq_true _ _).mp hlegal).imp of_decide_eq_true of_decide_eq_true
    · exact readsNext_of_makes hs hnext hexpected .endGroup hread fun hlegal _ hbrackets =>
        .endGroup (of_decide_eq_true hlegal) (brackets_of_close hbrackets) hs
  · exact readsNext_of_makes hs hnext hexpected .endIndex rfl fun hlegal _ hbrackets =>
      .endIndex (of_decide_eq_true hlegal) (brackets_of_close hbrackets) hs
  · refine readsNext_of_makes hs hnext hexpected .separator rfl fun hlegal _ hbrackets => ?_
    obtain ⟨hopen, ⟨⟩⟩ := Option.ite_none_right_eq_some.mp hbrackets
    exact .separator (of_decide_eq_true hlegal) hopen hs
  · refine readsNext_of_makes hs hnext hexpected .wildcard rfl ?_
    rintro hlegal _ ⟨⟩
    refine .wildcard ?_ hs
    exact ((Bool.or_eq_true _ _).mp hlegal).imp of_decide_eq_true of_decide_eq_true
  by_cases hlast : lexer.lastKind ∈ beforeOperand
  · exact readsNext_number hs hnext hexpected rfl (if_pos hlast)
  · refine readsNext_of_makes hs hnext hexpected .dereference (if_neg hlast) ?_
    rintro hlegal _ ⟨⟩
    exact .dereference (of_decide_eq_true hlegal) hs

end

/-- A token that is not unexpected is a legal one. -/
theorem readsNext_of_nextToken (hnext : lexer.nextToken = some (token, behind))
    (hexpected : token.kind ≠ .unexpected) : lexer.ReadsNext token behind := by
  cases hs : trimStart lexer.rest with
  | nil =>
    rw [nextToken_eq_none_iff.mpr hs] at hnext
    cases hnext
  | cons c =>
  by_cases hsign : c ∈ signs
  · rcases mem_append.mp hsign with hc | hc
    · exact readsNext_symbol hs hnext hexpected hc
    rcases mem_cons.mp hc with hc | hc
    · exact readsNext_string hs hnext hexpected hc
    · exact readsNext_operator hs hnext hexpected hc
  have hread : lexer.skipWhitespace.readToken c = _ := readToken_of_not_sign hsign
  split at hread
  · refine readsNext_number hs hnext hexpected ?_ hread
    simp only [startsNumber, Bool.or_eq_true, beq_iff_eq]
    tauto
  · exact readsNext_word hs hnext hexpected hread

end LexicalAnalyzer

end Velnor.Expression
