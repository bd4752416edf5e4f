/-
  What `job_context_data` leaves under a key, for a message whose context roots
  are distinct under the case-insensitive comparer: every root but `secrets`
  and `github` as the broker sent it, and under `github` the last entry that
  the seeds and the broker's dictionary give for a key.

  Both readers of the `github` context get a closed form from it.
-/
import Velnor.Trust.TrustClass
import Velnor.Relational.Script

namespace Velnor.Trust

open Text Context Relational List Option

section Roots

variable (lib : Library)

/-- Entries that form a case-insensitive dictionary. -/
structure WellRooted (entries : Entries) : Prop where
  unique : UniqueKeys lib.simpleUppercase false entries
  valid : ValidValues lib.simpleUppercase entries

theorem WellRooted.nil : WellRooted lib [] := ⟨nodup_nil, fun _ h => absurd h not_mem_nil⟩

variable {lib} {contextData entries : Entries}

theorem contextObject_eq_ok (h : WellRooted lib entries) :
    contextObject lib entries = .ok (.object false entries) := by
  unfold contextObject
  rw [tryObject_ok_iff.mpr ⟨rfl, h.unique, h.valid⟩]
  rfl

variable {result : Entries} (vars : Variables) {root : ContextValue} {value : ContextValue}

theorem WellRooted.setEntry (h : WellRooted lib entries)
    (hvalue : validate lib.simpleUppercase value = .ok ()) (name : Str) :
    WellRooted lib (setEntry lib.simpleUppercase entries name value) :=
  ⟨h.unique.setEntry name value, h.valid.setEntry hvalue name⟩

theorem wellRooted_setEntries {added : Entries} (hadded : ValidValues lib.simpleUppercase added) :
    WellRooted lib (setEntries lib.simpleUppercase [] added) :=
  ⟨(WellRooted.nil lib).unique.setEntries added, (WellRooted.nil lib).valid.setEntries hadded⟩

/-- The setter keeps distinct keys as they come. -/
theorem WellRooted.setEntries_eq (h : WellRooted lib entries) :
    setEntries lib.simpleUppercase [] entries = entries := by
  have hunique : UniqueKeys lib.simpleUppercase false ([] ++ entries) := h.unique
  exact setEntries_append hunique

/-- The dictionary of a well-rooted list is itself valid. -/
theorem WellRooted.validate (h : WellRooted lib entries) :
    validate lib.simpleUppercase (.object false entries) = .ok () := by
  rw [Context.validate, validateUniqueKeys_ok_iff.mpr h.unique]
  exact validateEntries_ok_iff.mpr h.valid

/-- A valid dictionary has distinct keys and valid values. -/
theorem validate_object {caseSensitive : Bool}
    (h : validate lib.simpleUppercase (.object caseSensitive entries) = .ok ()) :
    UniqueKeys lib.simpleUppercase caseSensitive entries ∧
      ValidValues lib.simpleUppercase entries := by
  obtain ⟨_, hkeys, hvalues⟩ := bind_eq_ok.mp h
  exact ⟨validateUniqueKeys_ok_iff.mp hkeys, validateEntries_ok_iff.mp hvalues⟩

variable {key : Str} {job : AgentJobRequestMessage}

theorem WellRooted.validate_lookup (h : WellRooted lib entries)
    (hlookup : lookup lib.simpleUppercase false entries key = some value) :
    Context.validate lib.simpleUppercase value = .ok () := by
  obtain ⟨name, hmem, _⟩ := mem_of_lookup hlookup
  exact h.valid (name, value) hmem

/-! ## The trust root -/

theorem trustContextData_eq_some_iff :
    trustContextData lib job = some root ↔
      root = .object false (job.contextData.insertionSort fun a b => a.1 ≤ b.1) ∧
        WellRooted lib job.contextData := by
  have hperm := perm_insertionSort (fun a b : Str × ContextValue => a.1 ≤ b.1) job.contextData
  have hroot : ∀ {a b : Entries}, a.Perm b → WellRooted lib a → WellRooted lib b :=
    fun hab h =>
      ⟨(hab.map _).nodup_iff.mp h.unique, fun entry he => h.valid entry (hab.mem_iff.mpr he)⟩
  unfold trustContextData
  constructor
  · intro h
    cases htry : tryObject lib.simpleUppercase false
        (job.contextData.insertionSort fun a b => a.1 ≤ b.1) with
    | error _ =>
      rw [htry] at h
      cases h
    | ok _ =>
      rw [htry] at h
      obtain ⟨rfl, hunique, hvalid⟩ := tryObject_ok_iff.mp htry
      exact ⟨(some.inj h).symm, hroot hperm ⟨hunique, hvalid⟩⟩
  · rintro ⟨rfl, h⟩
    have hsorted := hroot hperm.symm h
    rw [tryObject_ok_iff.mpr ⟨rfl, hsorted.unique, hsorted.valid⟩]
    rfl

/-- Derivation sees the roots of the message. -/
theorem contextMember_eq (h : trustContextData lib job = some root) (object key : Str) :
    contextMember lib root object key =
      (lookup lib.simpleUppercase false job.contextData object).bind
        (·.get? lib.simpleUppercase key) := by
  obtain ⟨rfl, hrooted⟩ := trustContextData_eq_some_iff.mp h
  unfold contextMember
  rw [get?_object, lookup_perm hrooted.unique
    (perm_insertionSort (fun a b => a.1 ≤ b.1) job.contextData).symm object]

/-! ## Secrets -/

theorem valid_secretEntries : ValidValues lib.simpleUppercase (vars.flatMap secretEntries) := by
  intro _ hentry
  obtain ⟨_, _, hin⟩ := mem_flatMap.mp hentry
  unfold secretEntries at hin
  split at hin
  · obtain ⟨_, _, rfl⟩ := mem_map.mp hin
    rfl
  · cases hin

theorem withSecrets_spec (h : WellRooted lib contextData) (vars : Variables) :
    ∃ result, withSecrets lib vars contextData = .ok result ∧ WellRooted lib result ∧
      ∀ key, foldKey lib.simpleUppercase false "secrets" ≠ foldKey lib.simpleUppercase false key →
        lookup lib.simpleUppercase false result key =
          lookup lib.simpleUppercase false contextData key := by
  have hsecrets : WellRooted lib (synthesizedSecrets lib vars) :=
    wellRooted_setEntries (valid_secretEntries _)
  unfold withSecrets
  split
  · exact ⟨contextData, rfl, h, fun _ _ => rfl⟩
  · refine ⟨_, by rw [contextObject_eq_ok hsecrets]; rfl, h.setEntry hsecrets.validate _, ?_⟩
    intro _ hkey
    exact lookup_setEntry_other _ hkey

/-! ## The `github` dictionary -/

theorem WellRooted.removeEntry (h : WellRooted lib contextData) (name : Str) :
    WellRooted lib (removeEntry lib contextData name) := by
  have hsub : Trust.removeEntry lib contextData name <+ contextData := eraseP_sublist
  exact ⟨(hsub.map _).nodup h.unique, fun entry he => h.valid entry (hsub.subset he)⟩

theorem lookup_removeEntry_other (contextData : Entries) {name : Str}
    (hne : foldKey lib.simpleUppercase false name ≠ foldKey lib.simpleUppercase false key) :
    lookup lib.simpleUppercase false (removeEntry lib contextData name) key =
      lookup lib.simpleUppercase false contextData key := by
  unfold removeEntry
  rcases exists_or_eq_self_of_eraseP
    (fun entry => ordinalIgnoreCaseEq lib.simpleUppercase entry.1 name) contextData with
    hself | ⟨⟨_, _⟩, _, _, -, hsame, rfl, herase⟩
  · rw [hself]
  · rw [← ordinalIgnoreCaseEq_iff.mp hsame] at hne
    rw [herase, lookup_append, lookup_append, lookup_cons_other _ _ hne]

theorem lookup_removeEntry_same {contextData : Entries} (h : WellRooted lib contextData)
    (name : Str) :
    lookup lib.simpleUppercase false (removeEntry lib contextData name) name = none := by
  refine lookup_eq_none fun entry hentry hkey => ?_
  obtain ⟨_, _, _, -, hsame, rfl, herase⟩ := exists_of_eraseP
    (p := fun entry => ordinalIgnoreCaseEq lib.simpleUppercase entry.1 name)
    (mem_of_mem_eraseP hentry) (ordinalIgnoreCaseEq_iff.mpr hkey)
  -- the entry that went has the key, too
  have hunique := h.unique
  unfold UniqueKeys at hunique
  rw [map_append, map_cons, nodup_middle, nodup_cons, ← map_append, ← herase] at hunique
  exact hunique.1 (mem_map.mpr ⟨entry, hentry, hkey.trans (ordinalIgnoreCaseEq_iff.mp hsame).symm⟩)

theorem valid_githubSeeds : ValidValues lib.simpleUppercase (githubSeeds vars) := by
  intro _ hentry
  rw [githubSeeds, mem_append, mem_toList, mem_toList] at hentry
  rcases hentry with h | h
  · obtain ⟨_, _, rfl⟩ := map_eq_some_iff.mp h
    rfl
  · obtain ⟨_, _, rfl⟩ := map_eq_some_iff.mp h
    rfl

/-- The entries of a valid broker dictionary are valid. -/
theorem valid_brokerEntries (h : WellRooted lib contextData)
    (hbroker : brokerEntries (lookup lib.simpleUppercase false contextData key) = .ok entries) :
    ValidValues lib.simpleUppercase entries := by
  cases hlookup : lookup lib.simpleUppercase false contextData key with
  | none =>
    rw [hlookup] at hbroker
    cases hbroker
    exact fun _ h => absurd h not_mem_nil
  | some value =>
    rw [hlookup] at hbroker
    have hvalue := h.validate_lookup hlookup
    cases value with
    | object =>
      cases hbroker
      exact (validate_object hvalue).2
    | _ => cases hbroker

/-- The dictionary under `github` shows the last entry that the seeds and the
    broker give for a key. -/
theorem withGithub_spec (h : WellRooted lib contextData)
    (hbroker : brokerEntries (lookup lib.simpleUppercase false contextData "github") =
      .ok entries) (vars : Variables) :
    ∃ result, withGithub lib vars contextData = .ok result ∧ WellRooted lib result ∧
      (∀ key, foldKey lib.simpleUppercase false "github" ≠ foldKey lib.simpleUppercase false key →
        lookup lib.simpleUppercase false result key =
          lookup lib.simpleUppercase false contextData key) ∧
      ∀ key, (lookup lib.simpleUppercase false result "github").bind
          (·.get? lib.simpleUppercase key) =
        lookup lib.simpleUppercase false (githubSeeds vars ++ entries).reverse key := by
  have hadded : ValidValues lib.simpleUppercase (githubSeeds vars ++ entries) := by
    intro entry he
    rcases mem_append.mp he with he | he
    · exact valid_githubSeeds vars entry he
    · exact valid_brokerEntries h hbroker entry he
  have hgithub : WellRooted lib (setEntries lib.simpleUppercase [] (githubSeeds vars ++ entries)) :=
    wellRooted_setEntries hadded
  have hlast : ∀ key, lookup lib.simpleUppercase false
      (setEntries lib.simpleUppercase [] (githubSeeds vars ++ entries)) key =
        lookup lib.simpleUppercase false (githubSeeds vars ++ entries).reverse key := by
    intro _
    rw [lookup_setEntries, lookup_nil, or_none]
  unfold withGithub
  dsimp only
  rw [hbroker]
  simp only [ok_bind]
  split
  · rw [contextObject_eq_ok hgithub]
    refine ⟨_, rfl, (h.removeEntry _).setEntry hgithub.validate _, ?_, ?_⟩
    · intro _ hkey
      rw [lookup_setEntry_other _ hkey]
      exact lookup_removeEntry_other contextData hkey
    · intro key
      rw [lookup_setEntry_same _ rfl]
      exact hlast key
  · rename_i hempty
    rw [not_or, not_not] at hempty
    refine ⟨_, rfl, h.removeEntry _, ?_, ?_⟩
    · intro _ hkey
      exact lookup_removeEntry_other contextData hkey
    · intro key
      rw [lookup_removeEntry_same h, ← hlast key, hempty.1]
      rfl

/-- Names of the two dictionaries that `InitializeJob` assembles. -/
def isAssembledRoot (name : Str) : Prop :=
  name.length = "secrets".toList.length ∨ name.length = "github".toList.length

/-- `job_context_data` on a well-rooted message. -/
theorem jobContextData_spec (h : WellRooted lib job.contextData)
    (hbroker : brokerEntries (lookup lib.simpleUppercase false job.contextData "github") =
      .ok entries) :
    ∃ result, jobContextData lib job = .ok result ∧
      (∀ key, ¬ isAssembledRoot key → lookup lib.simpleUppercase false result key =
        lookup lib.simpleUppercase false job.contextData key) ∧
      ∀ key, (lookup lib.simpleUppercase false result "github").bind
          (·.get? lib.simpleUppercase key) =
        lookup lib.simpleUppercase false (githubSeeds job.variableMap ++ entries).reverse key := by
  obtain ⟨mid, hmid, hmidRooted, hmidLookup⟩ := withSecrets_spec h job.variableMap
  have hgithub : lookup lib.simpleUppercase false mid "github" =
      lookup lib.simpleUppercase false job.contextData "github" :=
    hmidLookup _ (foldKey_ne (by decide))
  rw [← hgithub] at hbroker
  obtain ⟨result, hresult, hrooted, hothers, hmembers⟩ :=
    withGithub_spec hmidRooted hbroker job.variableMap
  refine ⟨result, ?_, fun key hkey => ?_, hmembers⟩
  · unfold jobContextData
    simp only [h.setEntries_eq, hmid, ok_bind, hresult, contextObject_eq_ok hrooted]
    rfl
  · unfold isAssembledRoot at hkey
    rw [not_or] at hkey
    rw [hothers key (foldKey_ne (Ne.symm hkey.2)), hmidLookup key (foldKey_ne (Ne.symm hkey.1))]

/-- A message with a job context has no `github` root or a dictionary. -/
theorem brokerEntries_of_ok (h : WellRooted lib job.contextData)
    (hok : jobContextData lib job = .ok result) :
    ∃ entries, brokerEntries (lookup lib.simpleUppercase false job.contextData "github") =
      .ok entries := by
  obtain ⟨_, hmid, _, hmidLookup⟩ := withSecrets_spec h job.variableMap
  unfold jobContextData at hok
  simp only [h.setEntries_eq, hmid, ok_bind] at hok
  obtain ⟨_, hgithub, _⟩ := bind_eq_ok.mp hok
  obtain ⟨entries, hentries, _⟩ := bind_eq_ok.mp hgithub
  rw [hmidLookup _ (foldKey_ne (by decide))] at hentries
  exact ⟨entries, hentries⟩

/-! ## Hydration's reading -/

/-- The keys that the seeds do not give. -/
theorem lookup_githubSeeds (htoken : key.length ≠ "token".toList.length)
    (hjob : key.length ≠ "job".toList.length) (vars : Variables) :
    lookup lib.simpleUppercase false (githubSeeds vars).reverse key = none := by
  refine lookup_eq_none fun entry hentry => ?_
  rw [mem_reverse, githubSeeds, mem_append, mem_toList, mem_toList] at hentry
  rcases hentry with h | h
  · obtain ⟨_, _, rfl⟩ := map_eq_some_iff.mp h
    exact foldKey_ne (Ne.symm htoken)
  · obtain ⟨_, _, rfl⟩ := map_eq_some_iff.mp h
    exact foldKey_ne (Ne.symm hjob)

variable (lib) in
/-- The text of a path: a flat root wins over the member that traversal finds. -/
def pathText (flat traversed : Option ContextValue) : Option Str :=
  match flat with
  | some value => contextScalarString lib value
  | none => traversed.bind (contextScalarString lib)

/-- The text that hydration takes for `github.<key>`: a flat root first, then
    the last entry of the broker's dictionary under the key. -/
theorem contextPathString_eq (h : WellRooted lib job.contextData)
    (hbroker : brokerEntries (lookup lib.simpleUppercase false job.contextData "github") =
      .ok entries)
    (hok : jobContextData lib job = .ok result) {path : Str}
    (hpath : path.splitOn '.' = ["github".toList, key]) (hroot : ¬ isAssembledRoot path)
    (htoken : key.length ≠ "token".toList.length) (hjob : key.length ≠ "job".toList.length) :
    contextPathString lib result path =
      pathText lib (lookup lib.simpleUppercase false job.contextData path)
        (lookup lib.simpleUppercase false entries.reverse key) := by
  obtain ⟨_, hok', hothers, hmembers⟩ := jobContextData_spec h hbroker
  rw [hok] at hok'
  cases hok'
  unfold contextPathString
  rw [hothers path hroot, hpath]
  cases lookup lib.simpleUppercase false job.contextData path with
  | some => rfl
  | none =>
    dsimp only [foldl_cons, foldl_nil, pathText]
    rw [hmembers key, reverse_append, lookup_append, lookup_githubSeeds htoken hjob, or_none]

end Roots

end Velnor.Trust
