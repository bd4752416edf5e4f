/-
  The entry lists of context dictionaries (context_value.rs, runner.rs): lookup
  under a comparer, and the case-insensitive setter that keeps the first
  spelling of a key and the last value given for it.

  Both comparers say that two keys have the same folded form, so every fact
  here is about folded keys: a validated dictionary has distinct ones, a lookup
  finds the entry with the folded form of the key, and a run of the setter
  leaves the last entry for each.
-/
import Velnor.Context.OrdinalCase
import Velnor.Collections.Rows

namespace Velnor.Context

open Text List

abbrev Entries := List (Str × ContextValue)

section Comparers

variable {upper : Char → Char}

/-! ## Folded keys -/

variable (upper) in
/-- What a dictionary compares of a key. -/
def foldKey (caseSensitive : Bool) (key : Str) : Str :=
  if caseSensitive then key else key.map (simpleOrdinalUppercase upper)

@[simp] theorem length_foldKey (caseSensitive : Bool) (key : Str) :
    (foldKey upper caseSensitive key).length = key.length := by
  unfold foldKey
  split
  · rfl
  · exact length_map ..

variable {caseSensitive : Bool} {a b name key : Str} {entries : Entries} {value : ContextValue}

/-- Keys of different lengths differ under both comparers. -/
theorem foldKey_ne (h : a.length ≠ b.length) :
    foldKey upper caseSensitive a ≠ foldKey upper caseSensitive b := by
  intro heq
  have := congrArg length heq
  rw [length_foldKey, length_foldKey] at this
  exact h this

/-- The case-insensitive comparer compares folded keys. -/
theorem ordinalIgnoreCaseEq_iff :
    ordinalIgnoreCaseEq upper a b = true ↔ foldKey upper false a = foldKey upper false b := by
  unfold ordinalIgnoreCaseEq
  rw [beq_iff_eq]
  exact ordinalIgnoreCaseCmp_eq_iff

theorem sameKey_iff :
    sameKey upper caseSensitive a b = true ↔
      foldKey upper caseSensitive a = foldKey upper caseSensitive b := by
  cases caseSensitive with
  | true => exact beq_iff_eq
  | false => exact ordinalIgnoreCaseEq_iff

/-! ## Lookup -/

variable (upper) in
/-- The value of the first entry under the key. -/
def lookup (caseSensitive : Bool) (entries : Entries) (key : Str) : Option ContextValue :=
  (entries.find? fun entry => sameKey upper caseSensitive entry.1 key).map Prod.snd

variable (upper) in
/-- `ContextValue::get`. -/
def ContextValue.get? (value : ContextValue) (key : Str) : Option ContextValue :=
  match value with
  | .object caseSensitive entries => lookup upper caseSensitive entries key
  | _ => none

@[simp] theorem get?_object (caseSensitive : Bool) (entries : Entries) (key : Str) :
    (ContextValue.object caseSensitive entries).get? upper key =
      lookup upper caseSensitive entries key := rfl

@[simp] theorem lookup_nil (caseSensitive : Bool) (key : Str) :
    lookup upper caseSensitive [] key = none := rfl

/-- Entries are rows under their folded keys. -/
theorem lookup_eq : lookup upper caseSensitive entries key =
    (Rows.lookup (fun entry => foldKey upper caseSensitive entry.1) entries
      (foldKey upper caseSensitive key)).map Prod.snd := by
  unfold lookup Rows.lookup
  congr 2
  funext entry
  exact Bool.eq_iff_iff.mpr (sameKey_iff.trans decide_eq_true_iff.symm)

theorem lookup_cons_same (value : ContextValue) (entries : Entries)
    (h : foldKey upper caseSensitive name = foldKey upper caseSensitive key) :
    lookup upper caseSensitive ((name, value) :: entries) key = some value := by
  rw [lookup_eq, Rows.lookup_cons, if_pos h]
  rfl

theorem lookup_cons_other (value : ContextValue) (entries : Entries)
    (h : foldKey upper caseSensitive name ≠ foldKey upper caseSensitive key) :
    lookup upper caseSensitive ((name, value) :: entries) key =
      lookup upper caseSensitive entries key := by
  rw [lookup_eq, lookup_eq, Rows.lookup_cons, if_neg h]

theorem lookup_append (caseSensitive : Bool) (a b : Entries) (key : Str) :
    lookup upper caseSensitive (a ++ b) key =
      (lookup upper caseSensitive a key).or (lookup upper caseSensitive b key) := by
  unfold lookup
  rw [find?_append]
  cases a.find? fun entry => sameKey upper caseSensitive entry.1 key <;> rfl

theorem mem_of_lookup (h : lookup upper caseSensitive entries key = some value) :
    ∃ name, (name, value) ∈ entries ∧ foldKey upper caseSensitive name =
      foldKey upper caseSensitive key := by
  obtain ⟨entry, hfind, rfl⟩ := Option.map_eq_some_iff.mp h
  have hsame := find?_some hfind
  exact ⟨entry.1, mem_of_find?_eq_some hfind, sameKey_iff.mp hsame⟩

theorem lookup_eq_none (h : ∀ entry ∈ entries, foldKey upper caseSensitive entry.1 ≠
    foldKey upper caseSensitive key) : lookup upper caseSensitive entries key = none := by
  rw [lookup_eq, Rows.lookup_eq_none_iff.mpr h]
  rfl

/-! ## Distinct keys -/

variable (upper) in
/-- No two entries have the same key. -/
def UniqueKeys (caseSensitive : Bool) (entries : Entries) : Prop :=
  (entries.map fun entry => foldKey upper caseSensitive entry.1).Nodup

variable {added : Entries} {previous keys : List Str}

theorem validateKeysAfter_ok_iff (hprevious : (previous.map (foldKey upper caseSensitive)).Nodup) :
    validateKeysAfter upper caseSensitive previous keys = .ok () ↔
      ((previous ++ keys).map (foldKey upper caseSensitive)).Nodup := by
  induction keys generalizing previous with
  | nil =>
    rw [append_nil]
    exact iff_of_true rfl hprevious
  | cons key _ ih =>
    rw [validateKeysAfter]
    split
    case isTrue hany =>
      obtain ⟨name, hname, hsame⟩ := any_eq_true.mp hany
      refine iff_of_false nofun fun hnodup => ?_
      rw [map_append, nodup_append] at hnodup
      exact hnodup.2.2 _ (mem_map_of_mem hname) _ mem_cons_self (sameKey_iff.mp hsame)
    case isFalse hany =>
      rw [ih, append_assoc, singleton_append]
      rw [map_append, nodup_append]
      refine ⟨hprevious, nodup_singleton _, fun _ hmem _ hkey heq => hany ?_⟩
      obtain ⟨name, hname, rfl⟩ := mem_map.mp hmem
      exact any_eq_true.mpr ⟨name, hname, sameKey_iff.mpr (heq.trans (mem_singleton.mp hkey))⟩

theorem validateKeysAfter_error {error : ContextValueError}
    (h : validateKeysAfter upper caseSensitive previous keys = .error error) :
    error = .duplicateObjectKey := by
  induction keys generalizing previous with
  | nil => cases h
  | cons _ _ ih =>
    rw [validateKeysAfter] at h
    split at h
    · cases h
      rfl
    · exact ih h

theorem validateUniqueKeys_ok_iff :
    validateUniqueKeys upper caseSensitive entries = .ok () ↔
      UniqueKeys upper caseSensitive entries := by
  unfold validateUniqueKeys UniqueKeys
  rw [validateKeysAfter_ok_iff (by exact nodup_nil), nil_append, map_map]
  rfl

variable (upper) in
/-- Every value passes validation. -/
def ValidValues (entries : Entries) : Prop := ∀ entry ∈ entries, validate upper entry.2 = .ok ()

theorem validateEntries_ok_iff :
    validateEntries upper entries = .ok () ↔ ValidValues upper entries := by
  induction entries with
  | nil => exact iff_of_true rfl fun _ h => absurd h not_mem_nil
  | cons entry entries ih =>
    obtain ⟨name, value⟩ := entry
    have hcons : ValidValues upper ((name, value) :: entries) ↔
        validate upper value = .ok () ∧ ValidValues upper entries := forall_mem_cons
    rw [validateEntries, hcons, ← ih]
    cases validate upper value with
    | error => exact iff_of_false nofun nofun
    | ok => exact (and_iff_right rfl).symm

/-- A dictionary can be built exactly from distinct keys and valid values. -/
theorem tryObject_ok_iff :
    tryObject upper caseSensitive entries = .ok value ↔
      value = .object caseSensitive entries ∧ UniqueKeys upper caseSensitive entries ∧
        ValidValues upper entries := by
  rw [← validateUniqueKeys_ok_iff, ← validateEntries_ok_iff]
  unfold tryObject
  cases validateUniqueKeys upper caseSensitive entries with
  | error => exact iff_of_false nofun fun h => by cases h.2.1
  | ok u =>
    cases validateEntries upper entries with
    | error => exact iff_of_false nofun fun h => by cases h.2.2
    | ok =>
      constructor
      · intro h
        cases h
        exact ⟨rfl, rfl, rfl⟩
      · rintro ⟨rfl, -, -⟩
        rfl

/-- In a dictionary with distinct keys a lookup finds every entry. -/
theorem lookup_of_mem (hunique : UniqueKeys upper caseSensitive entries)
    (hmem : (name, value) ∈ entries)
    (hkey : foldKey upper caseSensitive name = foldKey upper caseSensitive key) :
    lookup upper caseSensitive entries key = some value := by
  rw [lookup_eq, ← hkey]
  exact congrArg (Option.map Prod.snd) (Rows.lookup_of_mem hunique hmem)

/-- Lookups do not depend on the order of distinct keys. -/
theorem lookup_perm {a b : Entries} (hunique : UniqueKeys upper caseSensitive a) (hperm : a.Perm b)
    (key : Str) : lookup upper caseSensitive a key = lookup upper caseSensitive b key := by
  have huniqueB : UniqueKeys upper caseSensitive b := (hperm.map _).nodup_iff.mp hunique
  refine Option.ext fun value => ⟨fun h => ?_, fun h => ?_⟩
  all_goals obtain ⟨_, hmem, hkey⟩ := mem_of_lookup h
  · exact lookup_of_mem huniqueB (hperm.mem_iff.mp hmem) hkey
  · exact lookup_of_mem hunique (hperm.mem_iff.mpr hmem) hkey

/-! ## The case-insensitive setter -/

variable (upper) in
/-- `set_context_value_case_insensitive`. -/
def setEntry (entries : Entries) (name : Str) (value : ContextValue) : Entries :=
  match entries with
  | [] => [(name, value)]
  | (key, old) :: rest =>
    if ordinalIgnoreCaseEq upper key name then (key, value) :: rest
    else (key, old) :: setEntry rest name value

variable (upper) in
/-- The setter over a list of entries, in order. -/
def setEntries (entries added : Entries) : Entries :=
  added.foldl (fun entries entry => setEntry upper entries entry.1 entry.2) entries

variable (upper) in
/-- The setter replaces the value of the first entry under the key, or adds an
    entry. -/
theorem setEntry_cases (entries : Entries) (name : Str) (value : ContextValue) :
    (∃ front key old rest, entries = front ++ (key, old) :: rest ∧
        foldKey upper false key = foldKey upper false name ∧
        setEntry upper entries name value = front ++ (key, value) :: rest ∧
        ∀ entry ∈ front, foldKey upper false entry.1 ≠ foldKey upper false name) ∨
      setEntry upper entries name value = entries ++ [(name, value)] ∧
        ∀ entry ∈ entries, foldKey upper false entry.1 ≠ foldKey upper false name := by
  induction entries with
  | nil => exact .inr ⟨rfl, nofun⟩
  | cons entry entries ih =>
    obtain ⟨other, old⟩ := entry
    rw [setEntry]
    by_cases hsame : ordinalIgnoreCaseEq upper other name = true
    · exact .inl ⟨[], other, old, entries, rfl, ordinalIgnoreCaseEq_iff.mp hsame, if_pos hsame,
        by rintro _ ⟨⟩⟩
    have hne := mt ordinalIgnoreCaseEq_iff.mpr hsame
    rw [if_neg hsame]
    rcases ih with ⟨front, key, old', rest, rfl, hkey, hset, hfront⟩ | ⟨hset, hnone⟩
    · rw [hset]
      exact .inl ⟨_ :: front, key, old', rest, rfl, hkey, rfl, forall_mem_cons.mpr ⟨hne, hfront⟩⟩
    · rw [hset]
      exact .inr ⟨rfl, forall_mem_cons.mpr ⟨hne, hnone⟩⟩

theorem lookup_setEntry_same (value : ContextValue)
    (h : foldKey upper false name = foldKey upper false key) :
    lookup upper false (setEntry upper entries name value) key = some value := by
  rcases setEntry_cases upper entries name value with
    ⟨_, _, _, _, -, hkey, hset, hfront⟩ | ⟨hset, hnone⟩
  · rw [hset, lookup_append, lookup_eq_none (h ▸ hfront), lookup_cons_same value _ (hkey.trans h)]
    rfl
  · rw [hset, lookup_append, lookup_eq_none (h ▸ hnone), lookup_cons_same value [] h]
    rfl

theorem lookup_setEntry_other (value : ContextValue)
    (h : foldKey upper false name ≠ foldKey upper false key) :
    lookup upper false (setEntry upper entries name value) key =
      lookup upper false entries key := by
  rcases setEntry_cases upper entries name value with ⟨_, _, _, _, rfl, hkey, hset, -⟩ | ⟨hset, -⟩
  · rw [← hkey] at h
    rw [hset, lookup_append, lookup_append, lookup_cons_other value _ h, lookup_cons_other _ _ h]
  · rw [hset, lookup_append, lookup_cons_other value [] h, lookup_nil, Option.or_none]

/-- After a run of the setter a lookup sees the last entry given for the key. -/
theorem lookup_setEntries (entries added : Entries) (key : Str) :
    lookup upper false (setEntries upper entries added) key =
      (lookup upper false added.reverse key).or (lookup upper false entries key) := by
  unfold setEntries
  induction added generalizing entries with
  | nil => rfl
  | cons entry added ih =>
    obtain ⟨name, value⟩ := entry
    rw [foldl_cons, ih, reverse_cons, lookup_append]
    by_cases h : foldKey upper false name = foldKey upper false key
    · rw [lookup_setEntry_same value h, lookup_cons_same value [] h]
      cases lookup upper false added.reverse key <;> rfl
    · rw [lookup_setEntry_other value h, lookup_cons_other value [] h, lookup_nil]
      cases lookup upper false added.reverse key <;> rfl

theorem UniqueKeys.setEntry (h : UniqueKeys upper false entries) (name : Str)
    (value : ContextValue) : UniqueKeys upper false (setEntry upper entries name value) := by
  rcases setEntry_cases upper entries name value with ⟨_, _, _, _, rfl, -, hset, -⟩ | ⟨hset, hnone⟩
  · unfold UniqueKeys at h ⊢
    rw [map_append] at h
    rw [hset, map_append]
    exact h
  · rw [hset]
    exact Rows.distinct_append h (Rows.lookup_eq_none_iff.mpr hnone)

theorem UniqueKeys.setEntries (h : UniqueKeys upper false entries) (added : Entries) :
    UniqueKeys upper false (setEntries upper entries added) := by
  induction added generalizing entries with
  | nil => exact h
  | cons entry _ ih => exact ih (h.setEntry entry.1 entry.2)

theorem ValidValues.setEntry (h : ValidValues upper entries)
    (hvalue : validate upper value = .ok ()) (name : Str) :
    ValidValues upper (setEntry upper entries name value) := by
  unfold ValidValues at h ⊢
  rcases setEntry_cases upper entries name value with ⟨_, _, _, _, rfl, -, hset, -⟩ | ⟨hset, -⟩
  · rw [forall_mem_append, forall_mem_cons] at h
    rw [hset, forall_mem_append, forall_mem_cons]
    exact ⟨h.1, hvalue, h.2.2⟩
  · rw [hset, forall_mem_append]
    exact ⟨h, forall_mem_singleton.mpr hvalue⟩

theorem ValidValues.setEntries (h : ValidValues upper entries) (hadded : ValidValues upper added) :
    ValidValues upper (setEntries upper entries added) := by
  induction added generalizing entries with
  | nil => exact h
  | cons entry _ ih =>
    have hfirst := hadded entry mem_cons_self
    exact ih (h.setEntry hfirst entry.1) fun other hother => hadded other (mem_cons_of_mem _ hother)

/-- Distinct keys are kept as they come. -/
theorem setEntries_append (h : UniqueKeys upper false (entries ++ added)) :
    setEntries upper entries added = entries ++ added := by
  unfold setEntries
  induction added generalizing entries with
  | nil => exact (append_nil _).symm
  | cons entry _ ih =>
    obtain ⟨name, value⟩ := entry
    rw [foldl_cons]
    rcases setEntry_cases upper entries name value with ⟨_, key, _, _, rfl, hkey, -⟩ | ⟨hset, -⟩
    · unfold UniqueKeys at h
      rw [map_append, nodup_append] at h
      exact absurd hkey (h.2.2 _ (mem_map_of_mem (mem_append_right _ mem_cons_self)) _ (by simp))
    · rw [hset, ih, append_assoc]
      · rfl
      · rw [append_assoc]
        exact h

end Comparers

end Velnor.Context
