/-
  The lexical analyzer of workflow expressions (expression/lexer.rs).  What a
  token is depends on the token before it and on the brackets that are open,
  and a token that may not stand where it is becomes an `unexpected` one.

  The analyzer keeps the characters still to be read instead of the whole
  expression and an index into it; the index is kept for the positions.
-/
import Velnor.Expression.Syntax

namespace Velnor.Expression

open Text List

/-! ## Numbers -/

/-- Digits with at most one point: how many digits, and what is behind them. -/
def scanMantissa : Bool → Str → Nat × Str
  | _, [] => (0, [])
  | seenPoint, c :: s =>
    if c.isDigit then
      let (digits, rest) := scanMantissa seenPoint s
      (digits + 1, rest)
    else if c = '.' ∧ seenPoint = false then scanMantissa true s
    else (0, c :: s)

/-- The decimals the runner's number parser accepts. -/
def isDotnetDouble (value : Str) : Bool :=
  let (mantissaDigits, rest) := scanMantissa false (splitSign value).2
  if mantissaDigits = 0 then false
  else
    match rest with
    | [] => true
    | c :: rest =>
      if c ≠ 'e' ∧ c ≠ 'E' then false
      else
        let digits := (splitSign rest).2
        decide (digits ≠ []) && digits.all Char.isDigit

/-- The digit of a character in bases up to sixteen. -/
def hexValue (c : Char) : Nat :=
  if c.isDigit then c.toNat - '0'.toNat else c.toLower.toNat - 'a'.toNat + 10

def isHexDigit (c : Char) : Bool := c.isDigit || decide (c.toLower.toNat ∈ range' 97 6)

/-- `i32::from_str_radix` as a double; out of range is NaN. -/
def parseRadix (base : Nat) (digits : Str) : Double :=
  let n := digits.foldl (fun n c => n * base + hexValue c) 0
  if n < 2 ^ 31 then .finite false n 0 else .nan

/-- The number rules of JavaScript. -/
def parseNumber (value : Str) : Double :=
  let value := trim value
  if value = [] then .finite false 0 0
  else if isDotnetDouble value ∧ (parseF64? value).isSome then (parseF64? value).getD .nan
  else if value.length > 2 ∧ value.take 2 = "0x" ∧ (value.drop 2).all isHexDigit then
    parseRadix 16 (value.drop 2)
  else if value.length > 2 ∧ value.take 2 = "0o"
      ∧ (value.drop 2).all (fun c => decide (c ∈ "01234567".toList)) then
    parseRadix 8 (value.drop 2)
  else if value = "Infinity" then .infinite false
  else if value = "-Infinity" then .infinite true
  else .nan

/-! ## Characters -/

def isLegalKeyword (value : Str) : Bool :=
  match value with
  | [] => false
  | first :: rest =>
    (first.isAlpha || first == '_') && rest.all fun c => c.isAlphanum || c == '_' || c == '-'

def boundaryCharacters : Str := ['(', '[', ')', ']', ',', '.', '!', '>', '<', '=', '&', '|']

def isTokenBoundary (c : Char) : Bool := decide (c ∈ boundaryCharacters) || isWhitespace c

/-! ## What may follow what -/

def afterOperand : List (Option TokenKind) := [
  some .endGroup, some .endParameters, some .endIndex, some .wildcard, some .null, some .boolean,
  some .number, some .string, some .propertyName, some .namedValue]

def beforeOperand : List (Option TokenKind) := [
  none, some .separator, some .startGroup, some .startParameters, some .startIndex,
  some .logicalOperator]

/-- What a dereference or an index applies to. -/
def indexable : List (Option TokenKind) := [
  some .endGroup, some .endParameters, some .endIndex, some .wildcard, some .propertyName,
  some .namedValue]

/-- A token of the kind may stand behind the last one. -/
def isLegal (last : Option TokenKind) (kind : TokenKind) (rawValue : Str) : Bool :=
  match kind with
  | .startGroup => decide (last ∈ beforeOperand)
  | .startIndex => decide (last ∈ indexable)
  | .startParameters => decide (last = some .function)
  | .endGroup | .endIndex => decide (last ∈ afterOperand)
  | .endParameters => decide (last = some .startParameters) || decide (last ∈ afterOperand)
  | .separator => decide (last ∈ afterOperand)
  | .dereference => decide (last ∈ indexable)
  | .wildcard => decide (last = some .startIndex) || decide (last = some .dereference)
  | .logicalOperator =>
    if rawValue = "!" then decide (last ∈ beforeOperand)
    else decide (last ∈ afterOperand)
  | .null | .boolean | .number | .string | .function | .namedValue =>
    decide (last ∈ beforeOperand)
  | .propertyName => decide (last = some .dereference)
  | .unexpected => false

/-! ## The analyzer -/

structure LexicalAnalyzer where
  /-- The expression from `index` on. -/
  rest : Str
  index : Nat
  lastToken : Option Token
  /-- The brackets that are open, the innermost first. -/
  unclosedTokens : List Token

namespace LexicalAnalyzer

def new (expression : Str) : LexicalAnalyzer := ⟨expression, 0, none, []⟩

variable (lexer : LexicalAnalyzer)

def hasUnclosedTokens : Bool := !lexer.unclosedTokens.isEmpty

def lastKind : Option TokenKind := lexer.lastToken.map (·.kind)

def peekUnclosed : Option TokenKind := lexer.unclosedTokens.head?.map (·.kind)

def advance (n : Nat) : LexicalAnalyzer :=
  { lexer with rest := lexer.rest.drop n, index := lexer.index + n }

/-- The bracket a closing token needs to be the innermost open one. -/
def opening : TokenKind → Option TokenKind
  | .endGroup => some .startGroup
  | .endIndex => some .startIndex
  | .endParameters => some .startParameters
  | _ => none

/-- The token of the next `n` characters, and the analyzer behind them. -/
def createToken (lexer : LexicalAnalyzer) (kind : TokenKind) (n : Nat)
    (parsedValue : Option Value) : Token × LexicalAnalyzer :=
  let rawValue := lexer.rest.take n
  let unexpected : Token := ⟨.unexpected, rawValue, lexer.index, none⟩
  let token : Token := ⟨kind, rawValue, lexer.index, parsedValue⟩
  let behind := lexer.advance n
  if isLegal lexer.lastKind kind rawValue = false then (unexpected, behind)
  else
    match kind with
    | .startGroup | .startIndex | .startParameters =>
      (token, { behind with unclosedTokens := token :: lexer.unclosedTokens })
    | .endGroup | .endIndex | .endParameters =>
      if lexer.peekUnclosed ≠ opening kind then (unexpected, behind)
      else (token, { behind with unclosedTokens := lexer.unclosedTokens.tail })
    | .separator =>
      if lexer.peekUnclosed ≠ some .startParameters then (unexpected, behind)
      else (token, behind)
    | _ => (token, behind)

def skipWhitespace (lexer : LexicalAnalyzer) : LexicalAnalyzer :=
  lexer.advance (lexer.rest.takeWhile isWhitespace).length

def readNumberToken (lexer : LexicalAnalyzer) : Token × LexicalAnalyzer :=
  let n := 1 + (lexer.rest.tail.takeWhile fun c => !isTokenBoundary c || c == '.').length
  let parsed := parseNumber (lexer.rest.take n)
  if parsed = .nan then lexer.createToken .unexpected n none
  else lexer.createToken .number n (some (.number parsed))

/-- The words that are literals. -/
def keywordLiteral (raw : Str) : Option (TokenKind × Value) :=
  if raw = "null" then some (.null, .null)
  else if raw = "true" then some (.boolean, .boolean true)
  else if raw = "false" then some (.boolean, .boolean false)
  else if raw = "NaN" then some (.number, .number .nan)
  else if raw = "Infinity" then some (.number, .number (.infinite false))
  else none

def readKeywordToken (lexer : LexicalAnalyzer) : Token × LexicalAnalyzer :=
  let n := 1 + (lexer.rest.tail.takeWhile fun c => !isTokenBoundary c).length
  let raw := lexer.rest.take n
  if isLegalKeyword raw = false then lexer.createToken .unexpected n none
  else if lexer.lastKind = some .dereference then lexer.createToken .propertyName n none
  else
    match keywordLiteral raw with
    | some (kind, value) => lexer.createToken kind n (some value)
    | none =>
      -- a keyword in front of "(" is a function
      if ((lexer.rest.drop n).dropWhile isWhitespace).head? = some '(' then
        lexer.createToken .function n none
      else lexer.createToken .namedValue n none

/-- A string behind its opening quote: its value, its length with the closing
    quote, and whether there is one.  A doubled quote stands for a quote. -/
def readStringBody : Str → Str × Nat × Bool
  | [] => ([], 0, false)
  | '\'' :: '\'' :: s =>
    let (value, n, closed) := readStringBody s
    ('\'' :: value, n + 2, closed)
  | '\'' :: _ => ([], 1, true)
  | c :: s =>
    let (value, n, closed) := readStringBody s
    (c :: value, n + 1, closed)

def readStringToken (lexer : LexicalAnalyzer) : Token × LexicalAnalyzer :=
  let (value, n, closed) := readStringBody lexer.rest.tail
  if closed then lexer.createToken .string (1 + n) (some (.string value))
  else lexer.createToken .unexpected (1 + n) none

def twoCharacterOperators : List Str :=
  ["!=", ">=", "<=", "==", "&&", "||"]

def oneCharacterOperators : List Str := ["!", ">", "<"]

def readOperator (lexer : LexicalAnalyzer) : Token × LexicalAnalyzer :=
  if lexer.rest.length > 1 ∧ lexer.rest.take 2 ∈ twoCharacterOperators then
    lexer.createToken .logicalOperator 2 none
  else if lexer.rest.take 1 ∈ oneCharacterOperators then
    lexer.createToken .logicalOperator 1 none
  else
    lexer.createToken .unexpected
      (1 + (lexer.rest.tail.takeWhile fun c => !isTokenBoundary c).length) none

/-- The token that begins with `c`. -/
def readToken (lexer : LexicalAnalyzer) (c : Char) : Token × LexicalAnalyzer :=
  if c = '(' then
    lexer.createToken
      (if lexer.lastKind = some .function then .startParameters else .startGroup) 1 none
  else if c = '[' then lexer.createToken .startIndex 1 none
  else if c = ')' then
    lexer.createToken
      (if lexer.peekUnclosed = some .startParameters then .endParameters else .endGroup) 1 none
  else if c = ']' then lexer.createToken .endIndex 1 none
  else if c = ',' then lexer.createToken .separator 1 none
  else if c = '*' then lexer.createToken .wildcard 1 none
  else if c = '\'' then lexer.readStringToken
  else if c ∈ ['!', '>', '<', '=', '&', '|'] then lexer.readOperator
  else if c = '.' then
    -- a point starts a number where it cannot be a dereference
    if lexer.lastKind ∈ beforeOperand then lexer.readNumberToken
    else lexer.createToken .dereference 1 none
  else if c = '-' ∨ c = '+' ∨ c.isDigit then lexer.readNumberToken
  else lexer.readKeywordToken

def nextToken (lexer : LexicalAnalyzer) : Option (Token × LexicalAnalyzer) :=
  let lexer := lexer.skipWhitespace
  match lexer.rest with
  | [] => none
  | c :: _ =>
    let (token, lexer) := lexer.readToken c
    some (token, { lexer with lastToken := some token })

/-! A token is a slice of the expression of at least one character, so reading
them ends. -/

variable {lexer}

@[simp] theorem createToken_rest (kind : TokenKind) (n : Nat) (value : Option Value) :
    (lexer.createToken kind n value).2.rest = lexer.rest.drop n := by
  dsimp only [createToken]
  repeat' split
  all_goals rfl

theorem readStringBody_length_le (s : Str) : (readStringBody s).2.1 ≤ s.length := by
  fun_induction readStringBody s with
  | case1 => exact Nat.le_refl 0
  | case2 _ _ _ _ hbody ih =>
    rw [hbody] at ih
    exact Nat.succ_le_succ (Nat.succ_le_succ ih)
  | case3 => exact Nat.succ_le_succ (Nat.zero_le _)
  | case4 _ _ _ _ _ _ _ hbody ih =>
    rw [hbody] at ih
    exact Nat.succ_le_succ ih

/-- The reading takes at least one character, and only characters that are
    there. -/
def Slices (lexer : LexicalAnalyzer) (read : Token × LexicalAnalyzer) : Prop :=
  ∃ n, 1 + n ≤ lexer.rest.length ∧ read.2.rest = lexer.rest.drop (1 + n)

theorem slices_createToken {n : Nat} (hn : 1 + n ≤ lexer.rest.length) (kind : TokenKind)
    (value : Option Value) : lexer.Slices (lexer.createToken kind (1 + n) value) :=
  ⟨n, hn, createToken_rest kind (1 + n) value⟩

theorem slices_ite {condition : Prop} [Decidable condition] {a b : Token × LexicalAnalyzer}
    (ha : lexer.Slices a) (hb : lexer.Slices b) : lexer.Slices (if condition then a else b) := by
  by_cases h : condition
  · rwa [if_pos h]
  · rwa [if_neg h]

section
variable (hrest : lexer.rest ≠ [])

include hrest

theorem slices_one (kind : TokenKind) : lexer.Slices (lexer.createToken kind 1 none) :=
  slices_createToken (n := 0) (length_pos_iff.mpr hrest) kind none

theorem slices_run (p : Char → Bool) (kind : TokenKind) (value : Option Value) :
    lexer.Slices (lexer.createToken kind (1 + (lexer.rest.tail.takeWhile p).length) value) := by
  refine slices_createToken ?_ kind value
  have hle : (lexer.rest.tail.takeWhile p).length ≤ lexer.rest.tail.length :=
    IsPrefix.length_le <| takeWhile_prefix p
  have hpos := length_pos_iff.mpr hrest
  rw [length_tail] at hle
  omega

theorem slices_readNumberToken : lexer.Slices lexer.readNumberToken := by
  unfold readNumberToken
  dsimp only
  split <;> exact slices_run hrest _ _ _

theorem slices_readKeywordToken : lexer.Slices lexer.readKeywordToken := by
  unfold readKeywordToken
  dsimp only
  split
  · exact slices_run hrest _ _ _
  split
  · exact slices_run hrest _ _ _
  split
  · exact slices_run hrest _ _ _
  split <;> exact slices_run hrest _ _ _

theorem slices_readStringToken : lexer.Slices lexer.readStringToken := by
  have hle := readStringBody_length_le lexer.rest.tail
  have hpos := length_pos_iff.mpr hrest
  rw [length_tail] at hle
  have hbound : 1 + (readStringBody lexer.rest.tail).2.1 ≤ lexer.rest.length := by omega
  unfold readStringToken
  dsimp only
  split <;> exact slices_createToken hbound _ _

theorem slices_readOperator : lexer.Slices lexer.readOperator := by
  unfold readOperator
  split
  · next htwo => exact slices_createToken (n := 1) htwo.1 _ _
  split
  · exact slices_one hrest _
  · exact slices_run hrest _ _ _

theorem slices_readToken (c : Char) : lexer.Slices (lexer.readToken c) := by
  have hnumber := slices_readNumberToken hrest
  have hone := slices_one hrest
  refine slices_ite (hone _) (slices_ite (hone _) (slices_ite (hone _) (slices_ite (hone _)
    (slices_ite (hone _) (slices_ite (hone _) (slices_ite (slices_readStringToken hrest)
    (slices_ite (slices_readOperator hrest) (slices_ite ?_ (slices_ite hnumber
    (slices_readKeywordToken hrest))))))))))
  exact slices_ite hnumber (hone _)

end

theorem nextToken_shrinks {token : Token} {behind : LexicalAnalyzer}
    (h : lexer.nextToken = some (token, behind)) : behind.rest.length < lexer.rest.length := by
  have hskip : lexer.skipWhitespace.rest.length ≤ lexer.rest.length := by
    simp [skipWhitespace, advance]
  unfold nextToken at h
  dsimp only at h
  split at h
  · cases h
  rename_i c rest hrest
  cases h
  obtain ⟨_, _, hn⟩ := slices_readToken (by rw [hrest]; exact cons_ne_nil c rest) c
  rw [hn, length_drop]
  omega

end LexicalAnalyzer

end Velnor.Expression
