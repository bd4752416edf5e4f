/-
  The templates of `format` (format_template in expression/eval.rs): text with
  doubled braces, and placeholders that name an argument by its position.

  The source looks for the next braces from where it stands.  What this does at
  one character is an equation for each kind of character, and the rest of the
  module uses only those.
-/
import Velnor.Evaluation.Value

namespace Velnor.Evaluation

open Text List Option

inductive ExpressionError where
  | evaluation (message : Str)
  /-- The panic of an index past the arguments. -/
  | panic
  deriving DecidableEq, Repr

/-- A computation that can fail; a failure keeps the state. -/
abbrev Eval (σ : Type) := ExceptT ExpressionError (StateM σ)

def evaluationError {σ α : Type} (message : Str) : Eval σ α := throw (.evaluation message)

theorem eval_bind_ok {σ α β : Type} {x : Eval σ α} {f : α → Eval σ β} {state state' : σ} {b : β}
    (h : (x >>= f) state = (.ok b, state')) :
    ∃ a between, x state = (.ok a, between) ∧ f a between = (.ok b, state') := by
  change (ExceptT.bindCont f (x state).1) (x state).2 = _ at h
  cases hx : (x state).1 with
  | error =>
    rw [hx] at h
    cases h
  | ok a =>
    rw [hx] at h
    exact ⟨a, _, Prod.ext hx rfl, h⟩

/-! ## Placeholders -/

/-- The value of the digits, which is a byte, and their number. -/
def readArgIndex (s : Str) : Option (Nat × Nat) :=
  let digits := s.takeWhile Char.isDigit
  if digits = [] ∨ 255 < digitsValue digits then none
  else some (digitsValue digits, digits.length)

/-- Specifiers up to the brace that ends them, and its position; a doubled brace
    stands for itself. -/
def readSpecifiers : Str → Option (Str × Nat)
  | [] => none
  | '\x7d' :: '\x7d' :: s => (readSpecifiers s).map fun (specifiers, n) =>
    ('\x7d' :: specifiers, n + 2)
  | '\x7d' :: _ => some ([], 0)
  | c :: s => (readSpecifiers s).map fun (specifiers, n) => (c :: specifiers, n + 1)

def readFormatSpecifiers : Str → Option (Str × Nat)
  | '\x7d' :: _ => some ([], 0)
  | ':' :: s => (readSpecifiers s).map fun (specifiers, n) => (specifiers, n + 1)
  | _ => none

/-- What is behind a left brace: the index, the specifiers, and the position of
    the right brace. -/
def readPlaceholder (s : Str) : Option (Nat × Str × Nat) :=
  (readArgIndex s).bind fun (argIndex, length) =>
    (readFormatSpecifiers (s.drop length)).map fun (specifiers, n) =>
      (argIndex, specifiers, length + n)

/-- The digits name the argument at the position. -/
def IsIndex (digits : Str) (argIndex : Nat) : Prop :=
  digits ≠ [] ∧ digits.all Char.isDigit ∧ digitsValue digits = argIndex ∧ argIndex ≤ 255

variable {s : Str} {argIndex : Nat}

theorem readPlaceholder_index {digits : Str} (h : IsIndex digits argIndex) :
    readPlaceholder (digits ++ '\x7d' :: s) = some (argIndex, [], digits.length) := by
  obtain ⟨hne, hall, rfl, hle⟩ := h
  have htake : (digits ++ '\x7d' :: s).takeWhile Char.isDigit = digits := by
    rw [takeWhile_append_of_pos (by simpa using hall)]
    simp
  simp [readPlaceholder, readArgIndex, htake, hne, Nat.not_lt.mpr hle, readFormatSpecifiers]

theorem eq_of_readSpecifiers {n : Nat} (h : readSpecifiers s = some ([], n)) :
    n = 0 ∧ ∃ rest, s = '\x7d' :: rest := by
  unfold readSpecifiers at h
  split at h
  case h_3 rest _ =>
    cases h
    exact ⟨rfl, rest, rfl⟩
  all_goals simp at h

/-- What is read without specifiers: an index, a colon that may be there, and
    the right brace. -/
theorem eq_of_readPlaceholder {rbrace : Nat} (h : readPlaceholder s = some (argIndex, [], rbrace)) :
    ∃ digits specifier, s = digits ++ specifier ++ '\x7d' :: s.drop (rbrace + 1)
      ∧ IsIndex digits argIndex ∧ specifier ∈ [[], [':']] := by
  obtain ⟨⟨_, _⟩, hindex, hmap⟩ := bind_eq_some_iff.mp h
  obtain ⟨⟨_, _⟩, hread, heq⟩ := map_eq_some_iff.mp hmap
  cases heq
  simp only [readArgIndex] at hindex
  split at hindex
  · cases hindex
  rename_i hdigits
  rw [not_or, Nat.not_lt] at hdigits
  cases hindex
  have hindex : IsIndex (s.takeWhile Char.isDigit) _ := ⟨hdigits.1, all_takeWhile, rfl, hdigits.2⟩
  have hs := prefix_iff_eq_append.mp <| takeWhile_prefix (l := s) Char.isDigit
  generalize s.takeWhile Char.isDigit = digits at *
  obtain ⟨behind, rfl⟩ : ∃ behind, s = digits ++ behind := ⟨_, hs.symm⟩
  rw [drop_left] at hread
  unfold readFormatSpecifiers at hread
  split at hread
  case h_1 rest =>
    cases hread
    exact ⟨digits, [], by simp [drop_length_add_append], hindex, by simp⟩
  case h_2 rest =>
    obtain ⟨⟨_, _⟩, hspecifiers, heq⟩ := map_eq_some_iff.mp hread
    cases heq
    obtain ⟨rfl, _, rfl⟩ := eq_of_readSpecifiers hspecifiers
    exact ⟨digits, [':'], by simp [Nat.add_assoc, drop_length_add_append], hindex, by simp⟩
  case h_3 => cases hread

/-! ## The loop -/

/-- The arguments of `format_template`. -/
structure Formatting (N σ : Type) where
  lib : Library N
  format : Str
  argumentCount : Nat
  resolve : Nat → Eval σ (Value N)

namespace Formatting

section

variable {N σ : Type} (f : Formatting N σ)

def invalid {α : Type} : Eval σ α := evaluationError ("Invalid format string: " ++ f.format)

/-- The placeholder behind a left brace: its index, its text, and the position of
    the right brace.  An argument is resolved when it has no text yet. -/
def resolvePlaceholder (s : Str) (cache : Nat → Option Str) : Eval σ (Nat × Str × Nat) :=
  match readPlaceholder s with
  | none => f.invalid
  | some (argIndex, specifiers, rbrace) =>
    if f.argumentCount ≤ argIndex then
      evaluationError
        ("The following format string references more arguments than were supplied: " ++ f.format)
    else if specifiers ≠ [] then do
      let value ← f.resolve argIndex
      evaluationError ("The format specifiers '" ++ specifiers
        ++ "' are not valid for objects of type '" ++ value.kind.asStr ++ ['\''])
    else do
      let text ← (cache argIndex).elim (Value.convertToString f.lib <$> f.resolve argIndex) pure
      return (argIndex, text, rbrace)

/-- The loop, from the rest of the template.  A position that is the length of
    the rest is that of no brace. -/
def formatFrom (rest : Str) (cache : Nat → Option Str) (result : Str) : Eval σ Str :=
  let lbrace := rest.idxOf '\x7b'
  let rbrace := rest.idxOf '\x7d'
  if lbrace < rbrace then
    if rest[lbrace + 1]? = some '\x7b' then
      formatFrom (rest.drop (lbrace + 2)) cache (result ++ rest.take (lbrace + 1))
    else if rbrace = rest.length ∨ rbrace ≤ lbrace + 1 then f.invalid
    else do
      let (argIndex, text, rbrace) ← f.resolvePlaceholder (rest.drop (lbrace + 1)) cache
      formatFrom (rest.drop (lbrace + 1 + (rbrace + 1)))
        (Function.update cache argIndex (some text)) (result ++ rest.take lbrace ++ text)
  else if rbrace < rest.length then
    if rest[rbrace + 1]? = some '\x7d' then
      formatFrom (rest.drop (rbrace + 2)) cache (result ++ rest.take (rbrace + 1))
    else f.invalid
  else pure (result ++ rest)
  termination_by rest.length
  decreasing_by
    all_goals
      have : rest.idxOf '\x7d' ≤ rest.length := idxOf_le_length
      simp only [length_drop]
      omega

def formatTemplate : Eval σ Str := f.formatFrom f.format (fun _ => none) []

variable {c : Char} (cache : Nat → Option Str) (result : Str)

theorem formatFrom_nil : f.formatFrom [] cache result = pure result := by
  rw [formatFrom]
  simp

theorem formatFrom_char (hl : c ≠ '\x7b') (hr : c ≠ '\x7d') :
    f.formatFrom (c :: s) cache result = f.formatFrom s cache (result ++ [c]) := by
  have hdrop : ∀ n k, (c :: s).drop (n + 1 + k) = s.drop (n + k) := fun n k => by
    rw [Nat.add_right_comm]
    rfl
  conv_lhs => rw [formatFrom]
  conv_rhs => rw [formatFrom]
  simp only [idxOf_cons_ne _ hl, idxOf_cons_ne _ hr, Nat.succ_eq_add_one, getElem?_cons_succ,
    Nat.add_lt_add_iff_right, Nat.add_le_add_iff_right, Nat.add_right_cancel_iff, length_cons,
    take_succ_cons, append_assoc, cons_append, nil_append, hdrop]

theorem formatFrom_doubled (hc : c = '\x7b' ∨ c = '\x7d') :
    f.formatFrom (c :: c :: s) cache result = f.formatFrom s cache (result ++ [c]) := by
  rw [formatFrom]
  obtain rfl | rfl := hc <;> simp

theorem formatFrom_rbrace (h : s.head? ≠ some '\x7d') :
    f.formatFrom ('\x7d' :: s) cache result = f.invalid := by
  rw [head?_eq_getElem?] at h
  rw [formatFrom]
  simp [h]

theorem formatFrom_lbrace (h : s.head? ≠ some '\x7b') :
    f.formatFrom ('\x7b' :: s) cache result =
      (if s.idxOf '\x7d' = s.length ∨ s.idxOf '\x7d' = 0 then f.invalid
      else do
        let (argIndex, text, rbrace) ← f.resolvePlaceholder s cache
        f.formatFrom (s.drop (rbrace + 1)) (Function.update cache argIndex (some text))
          (result ++ text)) := by
  rw [head?_eq_getElem?] at h
  rw [formatFrom]
  simp [h, Nat.add_comm 1, idxOf_cons_ne]

/-! ## Templates -/

inductive Piece where
  | char (c : Char)
  | argument (argIndex : Nat)

/-- The text is a template of the pieces: characters, with braces doubled, and
    placeholders of arguments, with one of the specifiers. -/
inductive Template (argumentCount : Nat) (specifiers : List Str) : Str → List Piece → Prop where
  | nil : Template argumentCount specifiers [] []
  | char {c : Char} {s : Str} {pieces : List Piece} (hl : c ≠ '\x7b') (hr : c ≠ '\x7d')
      (h : Template argumentCount specifiers s pieces) :
      Template argumentCount specifiers (c :: s) (.char c :: pieces)
  | brace {c : Char} {s : Str} {pieces : List Piece} (hc : c = '\x7b' ∨ c = '\x7d')
      (h : Template argumentCount specifiers s pieces) :
      Template argumentCount specifiers (c :: c :: s) (.char c :: pieces)
  | placeholder {digits specifier s : Str} {argIndex : Nat} {pieces : List Piece}
      (hindex : IsIndex digits argIndex) (hcount : argIndex < argumentCount)
      (hspecifier : specifier ∈ specifiers) (h : Template argumentCount specifiers s pieces) :
      Template argumentCount specifiers ('\x7b' :: (digits ++ specifier ++ '\x7d' :: s))
        (.argument argIndex :: pieces)

def Piece.render (texts : Nat → Option Str) : Piece → Str
  | char c => [c]
  | argument argIndex => (texts argIndex).getD []

/-- The positions of the arguments that the pieces name. -/
def references : List Piece → List Nat
  | [] => []
  | .char _ :: pieces => references pieces
  | .argument argIndex :: pieces => argIndex :: references pieces

/-- An argument with its text. -/
def resolveText (argIndex : Nat) : Eval σ (Nat × Str) := do
  return (argIndex, (← f.resolve argIndex).convertToString f.lib)

/-- The arguments that have no text yet run, each once and in the order of their
    first reference. -/
theorem formatFrom_template {pieces : List Piece} (h : Template f.argumentCount [[]] s pieces) :
    f.formatFrom s cache result = (do
      let texts ← ((references pieces).filter fun i => (cache i).isNone).eraseDups.mapM
        f.resolveText
      return result ++ pieces.flatMap (Piece.render fun i => (cache i).or (texts.lookup i))) := by
  induction h generalizing cache result with
  | nil => simp [formatFrom_nil, references]
  | char hl hr _ ih => simp [formatFrom_char _ _ _ hl hr, ih, references, Piece.render]
  | brace hc _ ih => simp [formatFrom_doubled _ _ _ hc, ih, references, Piece.render]
  | @placeholder digits specifier s argIndex _ hindex hcount hspecifier _ ih =>
    obtain rfl : specifier = [] := by simpa using hspecifier
    obtain ⟨digit, digits, rfl⟩ := exists_cons_of_ne_nil hindex.1
    have hdigit : digit.isDigit = true := all_eq_true.mp hindex.2.1 _ mem_cons_self
    have hhead : digit ≠ '\x7b' ∧ digit ≠ '\x7d' := by
      constructor <;> (rintro rfl; revert hdigit; decide)
    have hidx : ¬((digit :: digits ++ '\x7d' :: s).idxOf '\x7d' =
          (digit :: digits ++ '\x7d' :: s).length
        ∨ (digit :: digits ++ '\x7d' :: s).idxOf '\x7d' = 0) := by
      rw [idxOf_eq_length_iff]
      simp [idxOf_cons_ne _ hhead.2]
    rw [append_nil, formatFrom_lbrace _ _ _ (by simpa using hhead.1), if_neg hidx,
      resolvePlaceholder, readPlaceholder_index hindex]
    simp only [hcount.not_ge, if_false, ne_eq, not_true_eq_false]
    cases hcache : cache argIndex with
    | some text =>
      have hsame : Function.update cache argIndex (some text) = cache := by
        rw [← hcache, Function.update_eq_self]
      simp [ih, references, hcache, Piece.render, hsame]
    | none =>
      have hnone : ∀ text i, (Function.update cache argIndex (some text) i).isNone =
          (!i == argIndex && (cache i).isNone) := fun text i => by
        by_cases hi : i = argIndex <;> simp [hi]
      have hlookup : ∀ text texts i, (Function.update cache argIndex (some text) i).or
          (lookup i texts) = (cache i).or (lookup i ((argIndex, text) :: texts)) :=
        fun text texts i => by
          by_cases hi : i = argIndex
          · simp [hi, hcache]
          · simp [hi, lookup, beq_false_of_ne hi]
      simp [ih, references, hcache, Piece.render, eraseDups_cons, resolveText, hnone, hlookup]

theorem resolvePlaceholder_ok {state state' : σ} {rbrace : Nat} {text : Str}
    (h : f.resolvePlaceholder s cache state = (.ok (argIndex, text, rbrace), state')) :
    readPlaceholder s = some (argIndex, [], rbrace) ∧ argIndex < f.argumentCount := by
  unfold resolvePlaceholder at h
  obtain hread | ⟨⟨i, specifiers, _⟩, hread⟩ := eq_none_or_eq_some (readPlaceholder s)
  · rw [hread] at h
    cases h
  rw [hread] at h
  dsimp only at h
  by_cases hcount : f.argumentCount ≤ i
  · rw [if_pos hcount] at h
    cases h
  rw [if_neg hcount] at h
  by_cases hspecifiers : specifiers = []
  · rw [if_neg (not_not.mpr hspecifiers)] at h
    obtain ⟨_, _, -, hpure⟩ := eval_bind_ok h
    cases hpure
    exact ⟨hspecifiers ▸ hread, Nat.not_le.mp hcount⟩
  · rw [if_pos hspecifiers] at h
    obtain ⟨_, _, -, herror⟩ := eval_bind_ok h
    cases herror

/-- What is formatted is a template; a colon may stand before a right brace. -/
theorem template_of_formatFrom {state state' : σ} {text : Str}
    (h : f.formatFrom s cache result state = (.ok text, state')) :
    ∃ pieces, Template f.argumentCount [[], [':']] s pieces := by
  induction hn : s.length using Nat.strong_induction_on generalizing s cache result state with
  | _ n ih =>
    subst hn
    obtain _ | ⟨c, s⟩ := s
    · exact ⟨_, .nil⟩
    rw [length_cons] at ih
    by_cases hbrace : (c = '\x7b' ∨ c = '\x7d') ∧ s.head? = some c
    · obtain ⟨s, rfl⟩ := head?_eq_some_iff.mp hbrace.2
      rw [formatFrom_doubled _ _ _ hbrace.1] at h
      obtain ⟨_, hpieces⟩ := ih s.length (Nat.lt_succ_of_lt (Nat.lt_succ_self _)) _ _ h rfl
      exact ⟨_, .brace hbrace.1 hpieces⟩
    by_cases hr : c = '\x7d'
    · subst hr
      rw [formatFrom_rbrace _ _ _ fun hhead => hbrace ⟨.inr rfl, hhead⟩] at h
      cases h
    by_cases hl : c = '\x7b'
    · subst hl
      rw [formatFrom_lbrace _ _ _ fun hhead => hbrace ⟨.inl rfl, hhead⟩] at h
      split at h
      · cases h
      obtain ⟨⟨_, _, _⟩, _, hplaceholder, hrest⟩ := eval_bind_ok h
      obtain ⟨hread, hcount⟩ := resolvePlaceholder_ok _ _ hplaceholder
      obtain ⟨_, _, hs, hindex, hspecifier⟩ := eq_of_readPlaceholder hread
      obtain ⟨_, hpieces⟩ := ih _ (Nat.lt_succ_of_le ((drop_sublist _ _).length_le)) _ _ hrest rfl
      rw [hs]
      exact ⟨_, .placeholder hindex hcount hspecifier hpieces⟩
    · rw [formatFrom_char _ _ _ hl hr] at h
      obtain ⟨_, hpieces⟩ := ih s.length (by omega) _ _ h rfl
      exact ⟨_, .char hl hr hpieces⟩

/-- A template with plain placeholders runs each argument it names once, in the
    order of the first references, and gives the characters and the texts of the
    arguments.  What is no template, even with colons, fails. -/
theorem formatTemplate_exact :
    (∀ pieces, Template f.argumentCount [[]] f.format pieces → f.formatTemplate = (do
          let texts ← (references pieces).eraseDups.mapM f.resolveText
          return pieces.flatMap (Piece.render fun i => texts.lookup i)))
      ∧ ((∀ pieces, ¬Template f.argumentCount [[], [':']] f.format pieces) →
          ∀ state, ∃ error state', f.formatTemplate state = (.error error, state')) := by
  refine ⟨fun pieces h => ?_, fun hnone state => ?_⟩
  · rw [formatTemplate, formatFrom_template _ _ _ h]
    simp
  · rcases hrun : f.formatTemplate state with ⟨error | _, state'⟩
    · exact ⟨error, state', rfl⟩
    obtain ⟨pieces, hpieces⟩ := template_of_formatFrom _ _ _ hrun
    exact absurd hpieces (hnone pieces)

end

end Formatting

end Velnor.Evaluation
