/-
  The one secret-masking implementation (redaction.rs): the values to hide and
  their encoded forms are registered as patterns, and every occurrence of a
  pattern in a text is replaced by `***`.

  The automaton comes from the aho-corasick library.  It is a parameter that
  may fail to build and otherwise reports leftmost-longest matches; when it
  fails, a literal search does the same work.
-/
import Velnor.Text.Redact
import Velnor.Text.Str

namespace Velnor.Secrets

open Text List

/-- The sentinel every masked value is replaced with. -/
def redaction : Str := "***"

def minMaskLength : Nat := 3

/-! ## Encoded forms -/

/-- `\uXXXX` and `%XX` write a number in at least so many hexadecimal digits. -/
def hex (width n : Nat) : Str := (Nat.toDigits 16 n).leftpad width '0'

def base64Alphabet : Str :=
  "ABCDEFGHIJKLMNOPQRSTUVWXYZabcdefghijklmnopqrstuvwxyz0123456789+/"

/-- The character for six bits of `triple` from bit `shift` on. -/
def base64Char (triple shift : Nat) : Char := base64Alphabet.getD (triple / 2 ^ shift % 64) '='

def base64Triple (a b c : UInt8) : Nat := a.toNat * 2 ^ 16 + b.toNat * 2 ^ 8 + c.toNat

def base64EncodeBytes : List UInt8 → Str
  | [] => []
  | [a] =>
    let triple := base64Triple a 0 0
    [base64Char triple 18, base64Char triple 12, '=', '=']
  | [a, b] =>
    let triple := base64Triple a b 0
    [base64Char triple 18, base64Char triple 12, base64Char triple 6, '=']
  | a :: b :: c :: bytes =>
    let triple := base64Triple a b c
    [base64Char triple 18, base64Char triple 12, base64Char triple 6, base64Char triple 0]
      ++ base64EncodeBytes bytes

variable (value : Str)

def base64Encode : Str := base64EncodeBytes (utf8 value)

def base64EncodeShift (shift : Nat) : Str :=
  let bytes := utf8 value
  if bytes.length > shift then base64EncodeBytes (bytes.drop shift) else base64EncodeBytes bytes

def commandLineArgumentEscape : Str := replace ['"'] "\\\"" value

def expressionStringEscape : Str := replace ['\''] "''" value

def jsonStringEscape : Str :=
  value.flatMap fun character =>
    if character = '"' then "\\\""
    else if character = '\\' then "\\\\"
    else if character = '\n' then "\\n"
    else if character = '\r' then "\\r"
    else if character = '\t' then "\\t"
    else if character.toNat = 0x08 then "\\b"
    else if character.toNat = 0x0c then "\\f"
    else if character.toNat < 0x20 ∨ character.toNat = 0x85 ∨ character.toNat = 0x2028
        ∨ character.toNat = 0x2029 then
      "\\u" ++ hex 4 character.toNat
    else [character]

def uriDataEscape : Str :=
  (utf8 value).flatMap fun byte =>
    let character := Char.ofNat byte.toNat
    if byte < 128 ∧ (character.isAlphanum ∨ character ∈ ['-', '_', '.', '~']) then [character]
    else '%' :: toAsciiUppercase (hex 2 byte.toNat)

def xmlEscape : Str :=
  replace ['\''] "&apos;" <|
    replace ['"'] "&quot;" <|
      replace ['>'] "&gt;" <|
        replace ['<'] "&lt;" <|
          replace ['&'] "&amp;" value

def backslashEscape : Str := replace ['\\'] "\\\\" value

def trimDoubleQuotes : Str :=
  if value.length > 8 ∧ value.head? = some '"' ∧ value.getLast? = some '"' then
    value.tail.dropLast
  else []

/-- Up to `&+`, or else up to the last `&`. -/
def powerShellPreAmpersandEscape : Str :=
  if '&' ∉ value then []
  else
    let part := match find? "&+" value with
      | some index => value.take (index + 2)
      | none => value.rdropWhile (· ≠ '&')
    if part.length ≥ 6 then part else []

/-- Behind `&+` and one more character, or else behind the last `&`. -/
def powerShellPostAmpersandEscape : Str :=
  if '&' ∉ value then []
  else
    let part := match find? "&+" value with
      | some index => (value.drop (index + 2)).tail
      | none => value.rtakeWhile (· ≠ '&')
    if part.length ≥ 6 then part else []

/-- A value and its encoded forms. -/
def encodings : List Str := [
  value,
  base64Encode value,
  base64EncodeShift value 1,
  base64EncodeShift value 2,
  commandLineArgumentEscape value,
  expressionStringEscape value,
  jsonStringEscape value,
  uriDataEscape value,
  xmlEscape value,
  backslashEscape value,
  trimDoubleQuotes value,
  powerShellPreAmpersandEscape value,
  powerShellPostAmpersandEscape value]

/-! ## Registration -/

/-- Insertion into a set. -/
def insertPattern (patterns : List Str) (pattern : Str) : List Str :=
  if pattern ∈ patterns then patterns else patterns ++ [pattern]

/-- A form that is worth masking. -/
def Maskable (candidate : Str) : Prop :=
  minMaskLength ≤ candidate.length ∧ trim candidate ≠ []

instance (candidate : Str) : Decidable (Maskable candidate) :=
  inferInstanceAs (Decidable (_ ∧ _))

def addEncodings (value : Str) (patterns : List Str) : List Str :=
  let value := trim value
  -- a source value that is too short stays unregistered in every form
  if value.length < minMaskLength then patterns
  else ((encodings value).filter (fun candidate => decide (Maskable candidate))).foldl
    insertPattern patterns

def register (value : Str) (patterns : List Str) : List Str :=
  let patterns := addEncodings value patterns
  if '\n' ∈ value ∨ '\r' ∈ value then
    (lines value).foldl (fun patterns line => addEncodings line patterns) patterns
  else patterns

/-- Longest first, then in the order of the characters. -/
def patternOrder (left right : Str) : Prop :=
  utf8Len right < utf8Len left
    ∨ (utf8Len right = utf8Len left ∧ (List.compareLex compare left right).isLE = true)

instance : DecidableRel patternOrder := fun _ _ => inferInstanceAs (Decidable (_ ∨ _))

def registeredPatterns (values : List Str) : List Str :=
  (values.foldl (fun patterns value => register value patterns) []).insertionSort patternOrder

/-! ## The literal search -/

/-- The earlier start wins, then the longer pattern. -/
def selectStep (text : Str) (selected : Option (Nat × Str)) (pattern : Str) : Option (Nat × Str) :=
  match find? pattern text with
  | none => selected
  | some start =>
    match selected with
    | none => some (start, pattern)
    | some (selectedStart, selectedPattern) =>
      if start < selectedStart
          ∨ (start = selectedStart ∧ utf8Len pattern > utf8Len selectedPattern) then
        some (start, pattern)
      else selected

def select (patterns : List Str) (text : Str) : Option (Nat × Str) :=
  patterns.foldl (selectStep text) none

variable {patterns : List Str} {pattern : Str}

theorem foldl_selectStep_mem {text : Str} {selected : Option (Nat × Str)} {start : Nat}
    (h : patterns.foldl (selectStep text) selected = some (start, pattern)) :
    pattern ∈ patterns ∨ selected = some (start, pattern) := by
  induction patterns generalizing selected with
  | nil => exact .inr h
  | cons candidate _ ih =>
    rcases ih h with hmem | hstep
    · exact .inl (mem_cons_of_mem candidate hmem)
    unfold selectStep at hstep
    split at hstep
    next => exact .inr hstep
    next =>
      split at hstep
      next =>
        cases hstep
        exact .inl mem_cons_self
      next =>
        split_ifs at hstep
        · cases hstep
          exact .inl mem_cons_self
        · exact .inr hstep

theorem select_mem {text : Str} {start : Nat}
    (h : select patterns text = some (start, pattern)) : pattern ∈ patterns := by
  rcases foldl_selectStep_mem h with hmem | hnone
  · exact hmem
  · cases hnone

/-- The text with every selected match replaced; patterns are not empty, so the
    cursor moves. -/
def maskLiterals (patterns : List Str) (hne : ∀ pattern ∈ patterns, pattern ≠ [])
    (value : Str) : Str :=
  if value = [] then []
  else
    match _h : select patterns value with
    | none => value
    | some (start, pattern) =>
      value.take start ++ redaction
        ++ maskLiterals patterns hne (value.drop (start + pattern.length))
termination_by value.length
decreasing_by
  have hpattern := length_pos_iff.mpr (hne pattern (select_mem _h))
  have hvalue := length_pos_iff.mpr ‹¬ value = []›
  rw [length_drop]
  omega

/-! ## The masker -/

/-- The aho-corasick library, built for leftmost-longest matches. -/
structure AhoCorasick where
  Automaton : Type
  build : List Str → Option Automaton
  find : Automaton → Str → Option (Nat × Nat)
  findIter : Automaton → Str → List (Nat × Nat)
  leftmostLongest : ∀ {patterns automaton}, build patterns = some automaton → ∀ text,
    Matches patterns text 0 (findIter automaton text)
  find_eq : ∀ automaton text, find automaton text = (findIter automaton text).head?

/-- No pattern is shorter than the minimum. -/
def AllLong (patterns : List Str) : Prop :=
  ∀ pattern ∈ patterns, minMaskLength ≤ pattern.length

/-- A compiled set of secret values and their encoded forms. -/
structure SecretMasker (library : AhoCorasick) where
  patterns : List Str
  automaton : Option library.Automaton
  literalFallback : Bool
  long : AllLong patterns
  compiled : ∀ a ∈ automaton, library.build patterns = some a
  covered : automaton = none → literalFallback = false → patterns = []

theorem AllLong.insert (h : AllLong patterns) (hpattern : minMaskLength ≤ pattern.length) :
    AllLong (insertPattern patterns pattern) := by
  rw [insertPattern]
  split_ifs
  · exact h
  exact forall_mem_append.mpr ⟨h, forall_mem_singleton.mpr hpattern⟩

theorem AllLong.addEncodings (h : AllLong patterns) (value : Str) :
    AllLong (addEncodings value patterns) := by
  rw [Secrets.addEncodings]
  split_ifs
  · exact h
  · refine foldlRecOn (motive := AllLong) _ _ h fun patterns hpatterns candidate hmem => ?_
    exact hpatterns.insert (of_decide_eq_true (mem_filter.mp hmem).2).1

theorem AllLong.register (h : AllLong patterns) (value : Str) :
    AllLong (register value patterns) := by
  rw [Secrets.register]
  split_ifs
  · exact foldlRecOn (motive := AllLong) _ _ (h.addEncodings value)
      fun patterns hpatterns line _ => hpatterns.addEncodings line
  · exact h.addEncodings value

theorem allLong_registeredPatterns (values : List Str) : AllLong (registeredPatterns values) := by
  have hset : AllLong (values.foldl (fun patterns value => register value patterns) []) :=
    foldlRecOn (motive := AllLong) _ _ (fun _ hmem => absurd hmem not_mem_nil)
      fun patterns hpatterns value _ => hpatterns.register value
  intro pattern hmem
  rw [registeredPatterns, mem_insertionSort] at hmem
  exact hset pattern hmem

namespace SecretMasker

variable {library : AhoCorasick}

/-- Register every value, its lines, and their encoded forms. -/
def new (library : AhoCorasick) (values : List Str) : SecretMasker library where
  patterns := registeredPatterns values
  automaton := if registeredPatterns values = [] then none
    else library.build (registeredPatterns values)
  literalFallback := decide (registeredPatterns values ≠ [])
    && (library.build (registeredPatterns values)).isNone
  long := allLong_registeredPatterns values
  compiled := by
    intro a ha
    split_ifs at ha
    · cases ha
    · exact ha
  covered := by
    intro hnone hfallback
    by_contra hne
    rw [if_neg hne] at hnone
    rw [hnone, decide_eq_true hne] at hfallback
    cases hfallback

variable (masker : SecretMasker library)

theorem patterns_ne_nil : ∀ pattern ∈ masker.patterns, pattern ≠ [] := by
  rintro _ hmem rfl
  exact absurd (masker.long [] hmem) (by decide)

def maskLiteralFallback (value : Str) : Str :=
  maskLiterals masker.patterns masker.patterns_ne_nil value

/-- Replace every registered value with the sentinel. -/
def mask (value : Str) : Str :=
  match masker.automaton with
  | some automaton => replaceMatches redaction value 0 (library.findIter automaton value)
  | none => if masker.literalFallback then masker.maskLiteralFallback value else value

/-- Whether a registered value still occurs. -/
def containsSecret (value : Str) : Bool :=
  match masker.automaton with
  | some automaton => (library.find automaton value).isSome
  | none => masker.literalFallback
      && masker.patterns.any fun pattern => (find? pattern value).isSome

end SecretMasker

end Velnor.Secrets
