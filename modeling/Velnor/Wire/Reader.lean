/-
  Readers that take a value off the front of a byte string, and the words and
  byte counts such formats are made of.

  `Exact read write Ok` says all there is to say about a reader: it accepts
  exactly what `write` puts there for the values with `Ok`, with any bytes
  after it.  Both directions of a round trip follow from it, and it passes
  through `bind` and through a checked conversion of the value read.
-/
import Mathlib

namespace Velnor.Wire

open List

/-! ## Big-endian words -/

/-- The low `width` bytes of `value`, most significant byte first. -/
def beBytes : Nat → Nat → List UInt8
  | 0, _ => []
  | width + 1, value => beBytes width (value / 256) ++ [UInt8.ofNat value]

/-- The number a byte string spells, most significant byte first. -/
def ofBeBytes (bytes : List UInt8) : Nat := bytes.foldl (fun acc byte => acc * 256 + byte.toNat) 0

@[simp] theorem length_beBytes (width value : Nat) : (beBytes width value).length = width := by
  induction width generalizing value with
  | zero => rfl
  | succ _ ih => rw [beBytes, length_append, ih, length_singleton]

variable (bytes : List UInt8)

theorem ofBeBytes_append_singleton (byte : UInt8) :
    ofBeBytes (bytes ++ [byte]) = ofBeBytes bytes * 256 + byte.toNat := by
  rw [ofBeBytes, foldl_append, foldl_cons, foldl_nil, ofBeBytes]

theorem ofBeBytes_beBytes {width value : Nat} (h : value < 256 ^ width) :
    ofBeBytes (beBytes width value) = value := by
  induction width generalizing value with
  | zero =>
    rw [Nat.lt_one_iff.mp h]
    rfl
  | succ width ih =>
    have hdiv : value / 256 < 256 ^ width := by
      omega
    rw [beBytes, ofBeBytes_append_singleton, ih hdiv, UInt8.toNat_ofNat']
    omega

/-- A byte string is what its number is written as at its length. -/
theorem beBytes_ofBeBytes : beBytes bytes.length (ofBeBytes bytes) = bytes := by
  induction bytes using reverseRecOn with
  | nil => rfl
  | append_singleton bytes byte ih =>
    have hbyte := byte.toNat_lt
    have hdiv : (ofBeBytes bytes * 256 + byte.toNat) / 256 = ofBeBytes bytes := by omega
    have hlow : UInt8.ofNat (ofBeBytes bytes * 256 + byte.toNat) = byte := by
      apply UInt8.toNat_inj.mp
      rw [UInt8.toNat_ofNat']
      omega
    rw [length_append, length_singleton, beBytes, ofBeBytes_append_singleton, hdiv, ih, hlow]

theorem ofBeBytes_lt : ofBeBytes bytes < 256 ^ bytes.length := by
  induction bytes using reverseRecOn with
  | nil => decide
  | append_singleton _ byte =>
    have hbyte := byte.toNat_lt
    rw [ofBeBytes_append_singleton, length_append, length_singleton, Nat.pow_succ]
    omega

/-! ## Readers -/

/-- A reader takes a value off the front of its input. -/
abbrev Reader (ε α : Type) := StateT (List UInt8) (Except ε) α

section Readers

variable {ε α β : Type} {input rest : List UInt8}

variable {b : α} {read : Reader ε α} (short : Nat → ε) (width : Nat)

theorem bind_ok {next : α → Reader ε β} {b : β} :
    (read >>= next).run input = .ok (b, rest) ↔
      ∃ a mid, read.run input = .ok (a, mid) ∧ (next a).run mid = .ok (b, rest) := by
  rw [StateT.run_bind]
  cases hread : read.run input with
  | error =>
    constructor
    · intro h
      cases h
    · rintro ⟨_, _, h, -⟩
      cases h
  | ok result =>
    constructor
    · intro h
      exact ⟨result.1, result.2, rfl, h⟩
    · rintro ⟨_, _, heq, h⟩
      cases heq
      exact h

theorem lift_ok {result : Except ε α} :
    (liftM result : Reader ε α).run input = .ok (b, rest) ↔ result = .ok b ∧ input = rest := by
  cases result with
  | error =>
    constructor
    · intro h
      cases h
    · rintro ⟨h, -⟩
      cases h
  | ok =>
    constructor
    · intro h
      cases h
      exact ⟨rfl, rfl⟩
    · rintro ⟨h, rfl⟩
      cases h
      rfl

theorem throw_ok {e : ε} : ¬ (throw e : Reader ε α).run input = .ok (b, rest) := by
  intro h
  cases h

/-- The reader accepts exactly what the writer writes for the values with `Ok`. -/
structure Exact (read : Reader ε α) (write : α → List UInt8) (Ok : α → Prop) : Prop where
  ok_iff : ∀ {input a rest}, read.run input = .ok (a, rest) ↔ Ok a ∧ input = write a ++ rest

namespace Exact

variable {write : α → List UInt8} {Ok : α → Prop} {next : α → Reader ε β}

/-- What was written is read, and reading goes on behind it. -/
theorem run_bind (hread : Exact read write Ok) {a : α} (ha : Ok a) (tail : List UInt8) :
    (read >>= next).run (write a ++ tail) = (next a).run tail := by
  rw [StateT.run_bind, hread.ok_iff.mpr ⟨ha, rfl⟩]
  rfl

/-- What is read was written. -/
theorem of_bind (hread : Exact read write Ok) {b : β}
    (h : (read >>= next).run input = .ok (b, rest)) :
    ∃ a tail, Ok a ∧ input = write a ++ tail ∧ (next a).run tail = .ok (b, rest) := by
  obtain ⟨a, tail, hrun, hnext⟩ := bind_ok.mp h
  obtain ⟨ha, rfl⟩ := hread.ok_iff.mp hrun
  exact ⟨a, tail, ha, rfl, hnext⟩

theorem bind_ok_iff (hread : Exact read write Ok) {b : β} :
    (read >>= next).run input = .ok (b, rest) ↔
      ∃ a tail, Ok a ∧ input = write a ++ tail ∧ (next a).run tail = .ok (b, rest) := by
  constructor
  · exact hread.of_bind
  · rintro ⟨_, _, ha, rfl, h⟩
    rw [hread.run_bind ha, h]

end Exact

/-- The next `n` bytes; `short` is the error at the number of bytes there are. -/
def takeBytes (short : Nat → ε) (n : Nat) : Reader ε (List UInt8) := fun cur =>
  if cur.length < n then .error (short cur.length) else .ok (cur.take n, cur.drop n)

theorem takeBytes_exact (n : Nat) :
    Exact (takeBytes short n) id (fun bytes => bytes.length = n) := by
  constructor
  intro input _ _
  rw [StateT.run, takeBytes]
  constructor
  · intro h
    split_ifs at h with hshort
    cases h
    exact ⟨length_take_of_le (Nat.le_of_not_lt hshort), (take_append_drop n input).symm⟩
  · rintro ⟨rfl, rfl⟩
    rw [if_neg (by rw [length_append, id]; omega), id, take_left, drop_left]

/-- A conversion of what is read keeps exactness when it is undone by `back` on
    what it accepts. -/
theorem Exact.convert {write : α → List UInt8} {Ok : α → Prop} (hread : Exact read write Ok)
    {check : α → Except ε β} {back : β → α} {Ok' : β → Prop}
    (hcheck : ∀ a b, Ok a ∧ check a = .ok b ↔ Ok' b ∧ a = back b) :
    Exact (do let a ← read; check a) (fun b => write (back b)) Ok' := by
  constructor
  intro _ b _
  constructor
  · intro h
    obtain ⟨a, _, hok, rfl, hb⟩ := hread.of_bind h
    obtain ⟨ha, rfl⟩ := lift_ok.mp hb
    obtain ⟨hok', rfl⟩ := (hcheck a b).mp ⟨hok, ha⟩
    exact ⟨hok', rfl⟩
  · rintro ⟨hok', rfl⟩
    obtain ⟨hok, hb⟩ := (hcheck (back b) b).mpr ⟨hok', rfl⟩
    rw [hread.run_bind hok]
    exact lift_ok.mpr ⟨hb, rfl⟩

/-- A word of `width` bytes. -/
def readWord (short : Nat → ε) (width : Nat) : Reader ε Nat := do
  let bytes ← takeBytes short width
  return ofBeBytes bytes

theorem readWord_exact :
    Exact (readWord short width) (beBytes width) (fun value => value < 256 ^ width) := by
  have hvalue : ∀ (bytes : List UInt8) (value : Nat),
      bytes.length = width ∧ (Except.ok (ofBeBytes bytes) : Except ε Nat) = .ok value
        ↔ value < 256 ^ width ∧ bytes = beBytes width value := by
    intro bytes value
    constructor
    · rintro ⟨rfl, h⟩
      cases h
      exact ⟨ofBeBytes_lt bytes, (beBytes_ofBeBytes bytes).symm⟩
    · rintro ⟨hlt, rfl⟩
      exact ⟨length_beBytes width value, by rw [ofBeBytes_beBytes hlt]⟩
  exact (takeBytes_exact short width).convert hvalue

/-- A byte string with its length before it. -/
def sizedBytes (width : Nat) (bytes : List UInt8) : List UInt8 :=
  beBytes width bytes.length ++ bytes

def readSized (short : Nat → ε) (width : Nat) : Reader ε (List UInt8) := do
  let len ← readWord short width
  takeBytes short len

theorem readSized_exact :
    Exact (readSized short width) (sizedBytes width) (fun bytes => bytes.length < 256 ^ width) := by
  constructor
  intro _ _ _
  rw [readSized]
  constructor
  · intro h
    obtain ⟨_, _, hlt, rfl, hbytes⟩ := (readWord_exact short width).of_bind h
    obtain ⟨rfl, rfl⟩ := (takeBytes_exact short _).ok_iff.mp hbytes
    exact ⟨hlt, by rw [sizedBytes, append_assoc, id]⟩
  · rintro ⟨hlt, rfl⟩
    rw [sizedBytes, append_assoc, (readWord_exact short width).run_bind hlt]
    exact (takeBytes_exact short _).ok_iff.mpr ⟨rfl, rfl⟩

end Readers

end Velnor.Wire
