/-
  A context tree crosses the host/guest boundary unchanged.  Encoding runs the
  checks of `validate` on its way and nothing else can stop it; decoding
  repeats them and passes.  The one value that changes its form is an unsigned
  integer above the range of `i64`, which comes back as its digits (`widen`).
-/
import Velnor.Context.Value
import Velnor.Relational.Script
import Velnor.Text.Decimal

namespace Velnor.Context

open Text Relational List

/-! ## Integers above the machine range -/

variable {value : Number} {integer : UInt64}

theorem outOfRangeUnsignedInteger_eq_some_iff :
    outOfRangeUnsignedInteger value = some integer ↔
      value = .posInt integer ∧ 2 ^ 63 ≤ integer.toNat := by
  rw [outOfRangeUnsignedInteger]
  cases value with
  | posInt n =>
    rw [Number.asI64, Number.asU64]
    by_cases h : n.toNat < 2 ^ 63
    · rw [if_pos h]
      refine iff_of_false nofun ?_
      rintro ⟨⟨⟩, _⟩
      omega
    · rw [if_neg h]
      constructor
      · rintro ⟨⟩
        exact ⟨rfl, Nat.le_of_not_lt h⟩
      · rintro ⟨⟨⟩, -⟩
        rfl
  | negInt | float => exact iff_of_false nofun nofun

theorem utf8Len_of_digits {s : Str} (h : ∀ c ∈ s, c.isDigit = true) : utf8Len s = s.length := by
  induction s with
  | nil => rfl
  | cons c _ ih =>
    have hc := utf8Size_of_isDigit (h c mem_cons_self)
    have hs := ih fun d hd => h d (mem_cons_of_mem c hd)
    rw [utf8Len] at hs ⊢
    rw [map_cons, sum_cons, hc, hs, length_cons, Nat.add_comm]

/-- The digits of such an integer are a big integer. -/
theorem validateBigInteger_decimal (h : 2 ^ 63 ≤ integer.toNat) :
    validateBigInteger (decimal integer) = .ok () := by
  have hdigits : ∀ c ∈ decimal integer, c.isDigit = true := fun _ => isDigit_of_mem_toDigits
  have hlen : (decimal integer).length ≤ 20 := by
    rw [decimal, Nat.length_toDigits_le_iff (by decide) (by decide)]
    have hlt := integer.toNat_lt
    omega
  have hsign : (decimal integer).head? ≠ some '-' := by
    intro hhead
    cases hdigits '-' (mem_of_mem_head? hhead)
  have hzero : (decimal integer).head? ≠ some '0' := head?_toDigits_ne_zero (by omega)
  rw [validateBigInteger, if_neg hsign, if_neg, decimal, parseI64?_toDigits_of_le h]
  · rfl
  rintro (hlong | hempty | hnot | ⟨-, hlead⟩)
  · rw [utf8Len_of_digits hdigits, maxBigIntegerChars] at hlong
    omega
  · exact Nat.toDigits_ne_nil hempty
  · exact hnot (all_eq_true.mpr hdigits)
  · exact hzero hlead

/-! ## What crosses -/

section Trees

variable (upper : Char → Char)

mutual

/-- The wire form of a tree. -/
def wireOf : ContextValue → WireContextValue
  | .null => .null
  | .undefined => .undefined
  | .bool value => .bool value
  | .number value =>
    match outOfRangeUnsignedInteger value with
    | some integer => .bigInteger (decimal integer)
    | none => .number value
  | .bigInteger digits => .bigInteger digits
  | .nonFinite value => .nonFinite value
  | .string value => .string value
  | .array values => .array (wireOfAll values)
  | .construct name arguments => .construct name (wireOfAll arguments)
  | .object caseSensitive entries => .object caseSensitive (wireOfEntries entries)

def wireOfAll : List ContextValue → List WireContextValue
  | [] => []
  | value :: values => wireOf value :: wireOfAll values

def wireOfEntries : List (Str × ContextValue) → List (Str × WireContextValue)
  | [] => []
  | (key, value) :: entries => (key, wireOf value) :: wireOfEntries entries

end

mutual

/-- The tree with every unsigned integer above the range of `i64` as its digits. -/
def widen : ContextValue → ContextValue
  | .null => .null
  | .undefined => .undefined
  | .bool value => .bool value
  | .number (.posInt integer) =>
    if 2 ^ 63 ≤ integer.toNat then .bigInteger (decimal integer) else .number (.posInt integer)
  | .number value => .number value
  | .bigInteger digits => .bigInteger digits
  | .nonFinite value => .nonFinite value
  | .string value => .string value
  | .array values => .array (widenAll values)
  | .construct name arguments => .construct name (widenAll arguments)
  | .object caseSensitive entries => .object caseSensitive (widenEntries entries)

def widenAll : List ContextValue → List ContextValue
  | [] => []
  | value :: values => widen value :: widenAll values

def widenEntries : List (Str × ContextValue) → List (Str × ContextValue)
  | [] => []
  | (key, value) :: entries => (key, widen value) :: widenEntries entries

end

theorem widen_number_of_some (h : outOfRangeUnsignedInteger value = some integer) :
    widen (.number value) = .bigInteger (decimal integer) := by
  obtain ⟨rfl, hle⟩ := outOfRangeUnsignedInteger_eq_some_iff.mp h
  rw [widen, if_pos hle]

theorem widen_number_of_none (h : outOfRangeUnsignedInteger value = none) :
    widen (.number value) = .number value := by
  cases value with
  | posInt =>
    rw [widen, if_neg]
    intro hle
    rw [outOfRangeUnsignedInteger_eq_some_iff.mpr ⟨rfl, hle⟩] at h
    cases h
  | negInt n | float bits => rfl

theorem keys_widenEntries (entries : List (Str × ContextValue)) :
    (widenEntries entries).map (·.1) = entries.map (·.1) := by
  induction entries with
  | nil => rfl
  | cons _ _ ih => rw [widenEntries, map_cons, map_cons, ih]

/-! ## Encoding -/

mutual

/-- Encoding fails where validation fails, with the same error. -/
theorem tryToWire_eq : ∀ value : ContextValue,
    tryToWire upper value = (validate upper value).map fun _ => wireOf value
  | .null | .undefined | .bool _ => rfl
  | .number value => by
    rw [tryToWire, validate, wireOf]
    cases outOfRangeUnsignedInteger value <;> rfl
  | .bigInteger digits => by
    rw [tryToWire, validate, wireOf]
    rfl
  | .nonFinite _ | .string _ => rfl
  | .array values => by
    rw [tryToWire, validate, wireOf, tryToWireAll_eq values]
    cases validateAll upper values <;> rfl
  | .construct name arguments => by
    rw [tryToWire, validate, wireOf, tryToWireAll_eq arguments]
    cases validateAll upper arguments <;> rfl
  | .object caseSensitive entries => by
    rw [tryToWire, validate, wireOf, tryToWireEntries_eq entries]
    cases validateUniqueKeys upper caseSensitive entries with
    | error => rfl
    | ok => cases validateEntries upper entries <;> rfl

theorem tryToWireAll_eq : ∀ values : List ContextValue,
    tryToWireAll upper values = (validateAll upper values).map fun _ => wireOfAll values
  | [] => rfl
  | value :: values => by
    rw [tryToWireAll, validateAll, wireOfAll, tryToWire_eq value, tryToWireAll_eq values]
    cases validate upper value with
    | error => rfl
    | ok => cases validateAll upper values <;> rfl

theorem tryToWireEntries_eq : ∀ entries : List (Str × ContextValue),
    tryToWireEntries upper entries
      = (validateEntries upper entries).map fun _ => wireOfEntries entries
  | [] => rfl
  | (key, value) :: entries => by
    rw [tryToWireEntries, validateEntries, wireOfEntries, tryToWire_eq value,
      tryToWireEntries_eq entries]
    cases validate upper value with
    | error => rfl
    | ok => cases validateEntries upper entries <;> rfl

end

/-! ## Decoding -/

mutual

/-- A valid tree stays valid when its integers are widened, and its wire form is
    decoded to the widened tree. -/
theorem tryFromWire_wireOf : ∀ value : ContextValue, validate upper value = .ok () →
    validate upper (widen value) = .ok () ∧ tryFromWire upper (wireOf value) = .ok (widen value)
  | .null | .undefined | .bool _ | .nonFinite _ | .string _ => fun h => ⟨h, rfl⟩
  | .number value => fun _ => by
    rw [wireOf]
    cases hrange : outOfRangeUnsignedInteger value with
    | none =>
      rw [tryFromWire, hrange, widen_number_of_none hrange]
      exact ⟨rfl, rfl⟩
    | some =>
      rw [tryFromWire, bigInteger, widen_number_of_some hrange, validate,
        validateBigInteger_decimal (outOfRangeUnsignedInteger_eq_some_iff.mp hrange).2]
      exact ⟨rfl, rfl⟩
  | .bigInteger digits => fun h => by
    rw [validate] at h
    rw [wireOf, tryFromWire, bigInteger, widen, validate, h]
    exact ⟨rfl, rfl⟩
  | .array values => fun h => by
    obtain ⟨hwiden, hwire⟩ := tryFromWireAll_wireOf values h
    rw [wireOf, tryFromWire, hwire, widen]
    exact ⟨hwiden, rfl⟩
  | .construct name arguments => fun h => by
    obtain ⟨hwiden, hwire⟩ := tryFromWireAll_wireOf arguments h
    rw [wireOf, tryFromWire, hwire, widen]
    exact ⟨hwiden, rfl⟩
  | .object caseSensitive entries => fun h => by
    rw [validate] at h
    obtain ⟨_, hkeys, hentries⟩ := bind_ok h
    obtain ⟨hwiden, hwire⟩ := tryFromWireEntries_wireOf entries hentries
    rw [validateUniqueKeys, ← keys_widenEntries, ← validateUniqueKeys] at hkeys
    rw [wireOf, tryFromWire, hwire, widen, validate, hkeys]
    refine ⟨hwiden, ?_⟩
    change tryObject upper caseSensitive (widenEntries entries) = _
    rw [tryObject, hkeys, hwiden]
    rfl

theorem tryFromWireAll_wireOf : ∀ values : List ContextValue, validateAll upper values = .ok () →
    validateAll upper (widenAll values) = .ok ()
      ∧ tryFromWireAll upper (wireOfAll values) = .ok (widenAll values)
  | [] => fun h => ⟨h, rfl⟩
  | value :: values => fun h => by
    rw [validateAll] at h
    obtain ⟨_, hvalue, hvalues⟩ := bind_ok h
    obtain ⟨hwiden, hwire⟩ := tryFromWire_wireOf value hvalue
    obtain ⟨hwidens, hwires⟩ := tryFromWireAll_wireOf values hvalues
    rw [wireOfAll, tryFromWireAll, hwire, hwires, widenAll, validateAll, hwiden]
    exact ⟨hwidens, rfl⟩

theorem tryFromWireEntries_wireOf : ∀ entries : List (Str × ContextValue),
    validateEntries upper entries = .ok () →
      validateEntries upper (widenEntries entries) = .ok ()
        ∧ tryFromWireEntries upper (wireOfEntries entries) = .ok (widenEntries entries)
  | [] => fun h => ⟨h, rfl⟩
  | (key, value) :: entries => fun h => by
    rw [validateEntries] at h
    obtain ⟨_, hvalue, hentries⟩ := bind_ok h
    obtain ⟨hwiden, hwire⟩ := tryFromWire_wireOf value hvalue
    obtain ⟨hwidens, hwires⟩ := tryFromWireEntries_wireOf entries hentries
    rw [wireOfEntries, tryFromWireEntries, hwire, hwires, widenEntries, validateEntries, hwiden]
    exact ⟨hwidens, rfl⟩

end

end Trees

/-- A context tree is encoded exactly when it is valid, with the same error when
    it is not; what is encoded is decoded to the widened tree; and the digits that
    stand for an integer name it. -/
theorem context_wire_round_trip (upper : Char → Char) (value : ContextValue) :
    (∀ e, tryToWire upper value = .error e ↔ validate upper value = .error e)
      ∧ (tryToWire upper value).bind (tryFromWire upper)
        = (validate upper value).map (fun _ => widen value)
      ∧ ∀ integer : UInt64, parseInt? (decimal integer) = some (integer.toNat : Int) := by
  rw [tryToWire_eq]
  refine ⟨?_, ?_, fun integer => parseInt?_toDigits integer.toNat⟩
  · intro _
    cases validate upper value with
    | error => constructor <;> intro h <;> cases h <;> rfl
    | ok => exact iff_of_false nofun nofun
  · cases hvalid : validate upper value with
    | error => rfl
    | ok => exact (tryFromWire_wireOf upper value hvalid).2

end Velnor.Context
