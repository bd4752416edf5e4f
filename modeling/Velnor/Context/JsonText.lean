/-
  The grammar of JSON (RFC 8259).  A document keeps every character of its text,
  so that a text is valid JSON when it is the text of a document, and the values
  it stands for are read off the document.

  An array or object that is not empty has its own constructor: a comma stands
  between two values and nowhere else.
-/
import Velnor.Context.JsonReader

namespace Velnor.Context

open Text

/-! ## Tokens -/

/-- Blanks between two tokens. -/
structure Whitespace where
  text : Str
  blank : text.all isJsonWhitespace = true

structure Digits where
  text : Str
  nonempty : text ≠ []
  digits : text.all Char.isDigit = true

structure Exponent where
  letter : Char
  letter_eq : letter = 'e' ∨ letter = 'E'
  sign : Str
  sign_eq : sign = [] ∨ sign = ['+'] ∨ sign = ['-']
  digits : Digits

/-- A number without a leading zero. -/
structure Numeral where
  negative : Bool
  whole : Digits
  canonical : whole.text.head? = some '0' → whole.text = ['0']
  fraction : Option Digits
  exponent : Option Exponent

def isHexDigit (c : Char) : Bool :=
  c.isDigit || (97 ≤ c.toNat && c.toNat ≤ 102) || (65 ≤ c.toNat && c.toNat ≤ 70)

/-- What stands between the quotes of a string. -/
inductive StringBody : Str → Prop where
  | nil : StringBody []
  | plain {c : Char} {s : Str} (control : 0x20 ≤ c.toNat) (quote : c ≠ '"')
      (backslash : c ≠ '\\') (rest : StringBody s) : StringBody (c :: s)
  | escape {c : Char} {s : Str} (short : c ∈ "\"\\/bfnrt".toList) (rest : StringBody s) :
      StringBody ('\\' :: c :: s)
  | unicode {hex s : Str} (four : hex.length = 4) (digits : hex.all isHexDigit = true)
      (rest : StringBody s) : StringBody ('\\' :: 'u' :: (hex ++ s))

/-- A string in its quotes. -/
structure StringToken where
  body : Str
  valid : StringBody body

/-! ## Numbers -/

namespace Exponent

def text (exponent : Exponent) : Str :=
  exponent.letter :: (exponent.sign ++ exponent.digits.text)

def value (exponent : Exponent) : Int :=
  if exponent.sign = ['-'] then -(digitsValue exponent.digits.text : Int)
  else digitsValue exponent.digits.text

end Exponent

namespace Numeral

variable (numeral : Numeral)

def signText : Str := if numeral.negative then ['-'] else []

def fractionDigits : Str := (numeral.fraction.map Digits.text).getD []

def fractionText : Str := (numeral.fraction.map fun digits => '.' :: digits.text).getD []

def exponentText : Str := (numeral.exponent.map Exponent.text).getD []

def text : Str :=
  numeral.signText ++ (numeral.whole.text ++ (numeral.fractionText ++ numeral.exponentText))

/-- No fraction and no exponent. -/
def isInteger : Bool := numeral.fraction.isNone && numeral.exponent.isNone

def magnitude : Nat := digitsValue numeral.whole.text

/-- The value of an integer. -/
def integer : Int := if numeral.negative then -(numeral.magnitude : Int) else numeral.magnitude

/-- An integer that is no `i64`. -/
def OutOfRange : Prop := numeral.isInteger = true ∧ ¬ InI64 numeral.integer

instance : Decidable numeral.OutOfRange := inferInstanceAs (Decidable (_ ∧ _))

/-- The double nearest to the number. -/
def double : Double :=
  Double.ofDecimal numeral.negative (digitsValue (numeral.whole.text ++ numeral.fractionDigits))
    ((numeral.exponent.map Exponent.value).getD 0 - numeral.fractionDigits.length)

def Overflows : Prop := numeral.double = .infinite numeral.negative

instance : Decidable numeral.Overflows := inferInstanceAs (Decidable (_ = _))

/-- The number as the library keeps it.  Minus zero has no integer of its own. -/
def number (bits : Double → UInt64) : Number :=
  if numeral.isInteger = true ∧ numeral.negative = false ∧ numeral.magnitude < 2 ^ 64 then
    .posInt (UInt64.ofNat numeral.magnitude)
  else if numeral.isInteger = true ∧ numeral.negative = true ∧ 0 < numeral.magnitude
      ∧ numeral.magnitude ≤ 2 ^ 63 then
    .negInt (Int64.ofInt numeral.integer)
  else .float (bits numeral.double)

end Numeral

/-! ## Strings -/

/-- A character, or the code unit of a `\u` escape. -/
inductive Escaped where
  | char (c : Char)
  | unit (value : Nat)
  deriving DecidableEq, Repr

def hexValue (c : Char) : Nat :=
  if c.isDigit then c.toNat - 48 else if 97 ≤ c.toNat then c.toNat - 87 else c.toNat - 55

def shortEscape (c : Char) : Char :=
  if c = 'b' then '\x08'
  else if c = 'f' then '\x0c'
  else if c = 'n' then '\n'
  else if c = 'r' then '\r'
  else if c = 't' then '\t'
  else c

def escapes : Str → List Escaped
  | '\\' :: 'u' :: a :: b :: c :: d :: s =>
    .unit (((hexValue a * 16 + hexValue b) * 16 + hexValue c) * 16 + hexValue d) :: escapes s
  | '\\' :: c :: s => .char (shortEscape c) :: escapes s
  | c :: s => .char c :: escapes s
  | [] => []

def isHighSurrogate (unit : Nat) : Bool := 0xD800 ≤ unit && unit ≤ 0xDBFF

def isLowSurrogate (unit : Nat) : Bool := 0xDC00 ≤ unit && unit ≤ 0xDFFF

/-- Two surrogates are one character; one alone is none. -/
def joinUnits : List Escaped → Option Str
  | [] => some []
  | .char c :: s => (joinUnits s).map (c :: ·)
  | .unit high :: .unit low :: s =>
    if isHighSurrogate high = true ∧ isLowSurrogate low = true then
      (joinUnits s).map (Char.ofNat (0x10000 + (high - 0xD800) * 0x400 + (low - 0xDC00)) :: ·)
    else if isHighSurrogate high || isLowSurrogate high then none
    else (joinUnits (.unit low :: s)).map (Char.ofNat high :: ·)
  | .unit value :: s =>
    if isHighSurrogate value || isLowSurrogate value then none
    else (joinUnits s).map (Char.ofNat value :: ·)

/-- The string that a body stands for, if there is one. -/
def unescape (body : Str) : Option Str := joinUnits (escapes body)

example : unescape "a\\ud83d\\ude00\\n" = some "a😀\n" := by decide +kernel

def StringToken.text (token : StringToken) : Str := '"' :: (token.body ++ ['"'])

/-- The string, where its escapes are Unicode. -/
def StringToken.value (token : StringToken) : Str := (unescape token.body).getD []

/-! ## Values -/

/-- The name of a member, with the colon behind it. -/
structure Key where
  before : Whitespace
  name : StringToken
  after : Whitespace

mutual

/-- A value, with the blanks inside it. -/
inductive Json where
  | null
  | bool (value : Bool)
  | number (numeral : Numeral)
  | string (token : StringToken)
  | emptyArray (inside : Whitespace)
  | array (elements : Elements)
  | emptyObject (inside : Whitespace)
  | object (members : Members)

/-- The values of an array that has one. -/
inductive Elements where
  | one (before : Whitespace) (value : Json) (after : Whitespace)
  | more (before : Whitespace) (value : Json) (after : Whitespace) (others : Elements)

/-- The members of an object that has one. -/
inductive Members where
  | one (key : Key) (before : Whitespace) (value : Json) (after : Whitespace)
  | more (key : Key) (before : Whitespace) (value : Json) (after : Whitespace) (others : Members)

end

/-- A value with the blanks around it. -/
structure Document where
  before : Whitespace
  value : Json
  after : Whitespace

/-! ## The text -/

/-- The text is made of numbers, strings and single characters. -/
inductive Piece where
  | number (numeral : Numeral)
  | string (token : StringToken)
  | plain (c : Char)

namespace Piece

def text : Piece → Str
  | number numeral => numeral.text
  | string token => token.text
  | plain c => [c]

def textOf (pieces : List Piece) : Str := pieces.flatMap text

def plains (s : Str) : List Piece := s.map plain

end Piece

open Piece

def Key.pieces (key : Key) : List Piece :=
  plains key.before.text ++ (.string key.name :: (plains key.after.text ++ [.plain ':']))

mutual

def Json.pieces : Json → List Piece
  | .null => plains "null"
  | .bool true => plains "true"
  | .bool false => plains "false"
  | .number numeral => [.number numeral]
  | .string token => [.string token]
  | .emptyArray inside => .plain '[' :: (plains inside.text ++ [.plain ']'])
  | .array elements => .plain '[' :: (elements.pieces ++ [.plain ']'])
  | .emptyObject inside => .plain '\x7b' :: (plains inside.text ++ [.plain '\x7d'])
  | .object members => .plain '\x7b' :: (members.pieces ++ [.plain '\x7d'])

def Elements.pieces : Elements → List Piece
  | .one before value after => plains before.text ++ (value.pieces ++ plains after.text)
  | .more before value after others =>
    plains before.text ++ (value.pieces ++ (plains after.text ++ .plain ',' :: others.pieces))

def Members.pieces : Members → List Piece
  | .one key before value after =>
    key.pieces ++ (plains before.text ++ (value.pieces ++ plains after.text))
  | .more key before value after others =>
    key.pieces ++ (plains before.text ++ (value.pieces
      ++ (plains after.text ++ .plain ',' :: others.pieces)))

end

namespace Document

variable (document : Document)

def pieces : List Piece :=
  plains document.before.text ++ (document.value.pieces ++ plains document.after.text)

def text : Str := textOf document.pieces

/-- The numbers of the document, in the order of the text. -/
def numerals : List Numeral :=
  document.pieces.filterMap fun
    | .number numeral => some numeral
    | _ => none

/-- The strings of the document, the names of members included. -/
def tokens : List StringToken :=
  document.pieces.filterMap fun
    | .string token => some token
    | _ => none

end Document

/-! ## The tree -/

section Tree
variable (bits : Double → UInt64)

mutual

def Json.tree : Json → OrderedJsonValue
  | .null => .null
  | .bool value => .bool value
  | .number numeral => .number (numeral.number bits)
  | .string token => .string token.value
  | .emptyArray _ => .array []
  | .array elements => .array elements.trees
  | .emptyObject _ => .object []
  | .object members => .object members.trees

def Elements.trees : Elements → List OrderedJsonValue
  | .one _ value _ => [value.tree]
  | .more _ value _ others => value.tree :: others.trees

def Members.trees : Members → List (Str × OrderedJsonValue)
  | .one key _ value _ => [(key.name.value, value.tree)]
  | .more key _ value _ others => (key.name.value, value.tree) :: others.trees

end

mutual

/-- The depth of the arrays and objects in each other. -/
def OrderedJsonValue.nesting : OrderedJsonValue → Nat
  | .array values => 1 + nestingAll values
  | .object entries => 1 + nestingEntries entries
  | .null | .bool _ | .number _ | .string _ => 0

def OrderedJsonValue.nestingAll : List OrderedJsonValue → Nat
  | [] => 0
  | value :: values => max (nesting value) (nestingAll values)

def OrderedJsonValue.nestingEntries : List (Str × OrderedJsonValue) → Nat
  | [] => 0
  | (_, value) :: entries => max (nesting value) (nestingEntries entries)

end

end Tree

/-- The JSON library. -/
structure JsonLibrary where
  /-- The bits of the double nearest to a decimal. -/
  bits : Double → UInt64
  nestingLimit : Nat
  read : Str → Option OrderedJsonValue

/-- The library reads the document, unless a string is not Unicode, a number is
    beyond the doubles, or the nesting passes a limit. -/
def JsonLibrary.Reads (library : JsonLibrary) (document : Document) : Prop :=
  library.read document.text =
    if (∀ token ∈ document.tokens, (unescape token.body).isSome)
        ∧ (∀ numeral ∈ document.numerals, ¬ numeral.Overflows)
        ∧ (document.value.tree library.bits).nesting ≤ library.nestingLimit then
      some (document.value.tree library.bits)
    else none

/-! ## What a document means -/

section Meaning
variable (simpleUppercase : Char → Char) (bits : Double → UInt64)

/-- An integer outside the range of `i64` is kept by its digits. -/
def Numeral.contextValue (numeral : Numeral) : ContextValue :=
  if numeral.OutOfRange then .bigInteger numeral.text else .number (numeral.number bits)

mutual

def Json.contextValue (comparer : JsonObjectComparer) (isRoot : Bool) : Json → ContextValue
  | .null => .null
  | .bool value => .bool value
  | .number numeral => numeral.contextValue bits
  | .string token => .string token.value
  | .emptyArray _ => .array []
  | .array elements => .array (elements.contextValues comparer.descendant)
  | .emptyObject _ => .object (comparer.isCaseSensitive isRoot) []
  | .object members =>
    .object (comparer.isCaseSensitive isRoot) (members.contextEntries comparer.descendant)

def Elements.contextValues (comparer : JsonObjectComparer) : Elements → List ContextValue
  | .one _ value _ => [value.contextValue comparer false]
  | .more _ value _ others =>
    value.contextValue comparer false :: others.contextValues comparer

def Members.contextEntries (comparer : JsonObjectComparer) : Members → List (Str × ContextValue)
  | .one key _ value _ => [(key.name.value, value.contextValue comparer false)]
  | .more key _ value _ others =>
    (key.name.value, value.contextValue comparer false) :: others.contextEntries comparer

end

def Members.names : Members → List Str
  | .one key _ _ _ => [key.name.value]
  | .more key _ _ _ others => key.name.value :: others.names

mutual

/-- The names in each object differ under its lookup rule. -/
def Json.NamesDiffer (comparer : JsonObjectComparer) (isRoot : Bool) : Json → Prop
  | .array elements => elements.NamesDiffer comparer.descendant
  | .object members =>
    members.names.Pairwise (fun previous name =>
      sameKey simpleUppercase (comparer.isCaseSensitive isRoot) previous name = false)
      ∧ members.NamesDiffer comparer.descendant
  | .null | .bool _ | .number _ | .string _ | .emptyArray _ | .emptyObject _ => True

def Elements.NamesDiffer (comparer : JsonObjectComparer) : Elements → Prop
  | .one _ value _ => value.NamesDiffer comparer false
  | .more _ value _ others => value.NamesDiffer comparer false ∧ others.NamesDiffer comparer

def Members.NamesDiffer (comparer : JsonObjectComparer) : Members → Prop
  | .one _ _ value _ => value.NamesDiffer comparer false
  | .more _ _ value _ others => value.NamesDiffer comparer false ∧ others.NamesDiffer comparer

end

end Meaning

end Velnor.Context
