/-
  The job message as the runner sees it after its context data is materialized
  (job_message.rs), the context that `InitializeJob` receives and the
  hydration of `github.*` variables from it (runner.rs).

  `variableMap` is the exact-key map of the message, `contextData` the ordered
  exact-key map of its context values.  The uppercase table, the display of
  numbers and the JSON reader behind an encoded event payload are parameters:
  hydration and trust derivation are compared, and both use the same ones.
-/
import Velnor.Context.Dictionary

namespace Velnor.Trust

open Text Context Option List

/-- The library functions that the two readers share. -/
structure Library where
  /-- Simple uppercase mapping of Unicode. -/
  simpleUppercase : Char → Char
  /-- Display of a JSON number. -/
  numberText : Number → Str
  /-- Display of a double. -/
  doubleText : UInt64 → Str
  /-- `ContextValue::from_json_str_case_sensitive`. -/
  readJson : Str → Option ContextValue

/-! ## The message -/

/-- `VariableValue`. -/
structure VariableValue where
  value : Option Str
  isSecret : Bool

abbrev Variables := List (Str × VariableValue)

/-- The members of a repository resource that trust derivation reads. -/
structure RepositoryResource where
  repositoryAlias : Option Str
  properties : ContextValue

/-- The members of the job message that hydration and trust derivation read. -/
structure AgentJobRequestMessage where
  planId : Str
  variableMap : Variables
  contextData : Entries
  contextKeys : (contextData.map Prod.fst).Nodup
  repositories : List (Option RepositoryResource)

/-- `variables.get(name)`. -/
def getVariable (vars : Variables) (name : Str) : Option VariableValue :=
  (vars.find? fun entry => entry.1 == name).map Prod.snd

/-- `entry(name).or_insert(value)`. -/
def orInsert (vars : Variables) (name : Str) (value : VariableValue) : Variables :=
  if (getVariable vars name).isSome then vars else vars ++ [(name, value)]

/-! ## The job context -/

inductive JobContextError where
  | githubNotDictionary
  | value (error : ContextValueError)
  deriving DecidableEq, Repr

section Context

variable (lib : Library)

/-- `secret_context_names`. -/
def secretContextNames (variableName : Str) : List Str :=
  if eqIgnoreAsciiCase variableName "system.accessToken"
      ∨ eqIgnoreAsciiCase variableName "system.github.token" then []
  else [variableName]

/-- The `secrets` entries of one variable. -/
def secretEntries (entry : Str × VariableValue) : Entries :=
  match entry.2.isSecret, entry.2.value with
  | true, some value => (secretContextNames entry.1).map fun name => (name, .string value)
  | _, _ => []

/-- The variables in the order of their map. -/
def inKeyOrder (vars : Variables) : Variables := vars.insertionSort fun a b => a.1 ≤ b.1

def synthesizedSecrets (vars : Variables) : Entries :=
  setEntries lib.simpleUppercase [] ((inKeyOrder vars).flatMap secretEntries)

/-- `ContextValue::object`, with its error as the job context reports it. -/
def contextObject (entries : Entries) : Except JobContextError ContextValue :=
  (tryObject lib.simpleUppercase false entries).mapError .value

/-- The variable-derived secrets replace the broker's. -/
def withSecrets (vars : Variables) (contextData : Entries) : Except JobContextError Entries :=
  if synthesizedSecrets lib vars = [] then .ok contextData
  else do
    let secrets ← contextObject lib (synthesizedSecrets lib vars)
    pure (setEntry lib.simpleUppercase contextData "secrets" secrets)

/-- `token` and `job`, seeded from variables before the broker's entries. -/
def githubSeeds (vars : Variables) : Entries :=
  let token := (getVariable vars "system.github.token".toList).bind VariableValue.value
  let job := ((getVariable vars "system.github.job".toList).bind
    VariableValue.value).filter (· ≠ [])
  (token.map fun value => ("token".toList, ContextValue.string value)).toList ++
    (job.map fun value => ("job".toList, ContextValue.string value)).toList

/-- The entries of the broker's `github` dictionary. -/
def brokerEntries : Option ContextValue → Except JobContextError Entries
  | some (.object _ entries) => .ok entries
  | some _ => .error .githubNotDictionary
  | none => .ok []

/-- `remove_context_entry_case_insensitive`. -/
def removeEntry (entries : Entries) (name : Str) : Entries :=
  entries.eraseP fun entry => ordinalIgnoreCaseEq lib.simpleUppercase entry.1 name

/-- Put the rebuilt `github` dictionary in place of the broker's. -/
def withGithub (vars : Variables) (contextData : Entries) : Except JobContextError Entries := do
  let broker := lookup lib.simpleUppercase false contextData "github"
  let entries ← brokerEntries broker
  let github := setEntries lib.simpleUppercase [] (githubSeeds vars ++ entries)
  let rest := removeEntry lib contextData "github"
  if github ≠ [] ∨ broker.isSome then do
    let value ← contextObject lib github
    pure (setEntry lib.simpleUppercase rest "github" value)
  else pure rest

/-- `job_context_data`. -/
def jobContextData (job : AgentJobRequestMessage) : Except JobContextError Entries := do
  let contextData := setEntries lib.simpleUppercase [] job.contextData
  let contextData ← withSecrets lib job.variableMap contextData
  let contextData ← withGithub lib job.variableMap contextData
  let _ ← contextObject lib contextData
  pure contextData

/-! ## Hydration -/

/-- `context_scalar_string`. -/
def contextScalarString : ContextValue → Option Str
  | .string value => some value
  | .number value => some (lib.numberText value)
  | .bigInteger digits => some digits
  | .bool value => some (if value then "true" else "false")
  | _ => none

/-- `context_string` of runner.rs: a flat key that spells the whole path wins
    over traversal. -/
def contextPathString (contextData : Entries) (path : Str) : Option Str :=
  match lookup lib.simpleUppercase false contextData path with
  | some value => contextScalarString lib value
  | none =>
    match path.splitOn '.' with
    | [] => none
    | first :: parts =>
      let value := parts.foldl (fun value part => value.bind (·.get? lib.simpleUppercase part))
        (lookup lib.simpleUppercase false contextData first)
      value.bind (contextScalarString lib)

/-- The names that hydration fills. -/
def hydratedNames : List Str :=
  ["github.actor", "github.actor_id", "github.api_url", "github.base_ref", "github.event_name",
    "github.graphql_url", "github.head_ref", "github.ref", "github.ref_name",
    "github.ref_protected", "github.ref_type", "github.repository", "github.repository_id",
    "github.repository_owner", "github.repository_owner_id", "github.retention_days",
    "github.run_attempt", "github.run_id", "github.run_number", "github.run_started_at",
    "github.server_url", "github.sha", "github.triggering_actor", "github.workflow",
    "github.workflow_ref", "github.workflow_sha"].map String.toList

/-- The text hydration takes for a name. -/
def hydratedText (contextData : Entries) (name : Str) : Option Str :=
  (contextPathString lib contextData name).filter (· ≠ [])

/-- One name of the loop. -/
def hydrateName (contextData : Entries) (vars : Variables) (name : Str) : Variables :=
  match hydratedText lib contextData name with
  | none => vars
  | some value => orInsert vars name ⟨some value, false⟩

/-- `hydrate_github_variables_from_context`. -/
def hydrateGithubVariablesFromContext (job : AgentJobRequestMessage) (contextData : Entries) :
    AgentJobRequestMessage :=
  { job with variableMap := hydratedNames.foldl (hydrateName lib contextData) job.variableMap }

end Context

/-! ## What hydration leaves under a name -/

variable {vars : Variables} {names : List Str}

theorem getVariable_append_other {name key : Str} {value : VariableValue} (h : key ≠ name) :
    getVariable (vars ++ [(key, value)]) name = getVariable vars name := by
  unfold getVariable
  rw [find?_append]
  have hnone : [(key, value)].find? (fun entry => entry.1 == name) = none := by
    simp [h]
  rw [hnone, or_none]

/-- `or_insert` keeps the entry that is there. -/
theorem getVariable_orInsert_same (vars : Variables) (name : Str) (value : VariableValue) :
    getVariable (orInsert vars name value) name = (getVariable vars name).or (some value) := by
  unfold orInsert
  cases h : getVariable vars name with
  | some =>
    rw [isSome_some, if_pos rfl, h]
    rfl
  | none =>
    rw [isSome_none, if_neg Bool.false_ne_true]
    unfold getVariable at h ⊢
    rw [map_eq_none_iff] at h
    rw [find?_append, h]
    simp

section Names

variable (lib : Library) {contextData : Entries}

variable {name : Str}

theorem getVariable_hydrateName_other {key : Str} (h : key ≠ name) :
    getVariable (hydrateName lib contextData vars key) name = getVariable vars name := by
  unfold hydrateName
  split
  · rfl
  · unfold orInsert
    split
    · rfl
    · exact getVariable_append_other h

theorem getVariable_hydrateName_same (vars : Variables) (name : Str) :
    getVariable (hydrateName lib contextData vars name) name =
      (getVariable vars name).or
        ((hydratedText lib contextData name).map fun text => ⟨some text, false⟩) := by
  unfold hydrateName
  cases hydratedText lib contextData name with
  | none => exact (or_none ..).symm
  | some text => exact getVariable_orInsert_same vars name ⟨some text, false⟩

/-- Names outside the list are not touched. -/
theorem getVariable_hydrate_of_not_mem (h : name ∉ names) (vars : Variables) :
    getVariable (names.foldl (hydrateName lib contextData) vars) name = getVariable vars name := by
  induction names generalizing vars with
  | nil => rfl
  | cons _ _ ih =>
    rw [mem_cons, not_or] at h
    rw [foldl_cons, ih h.2, getVariable_hydrateName_other lib (Ne.symm h.1)]

/-- A name of the list keeps its entry, or gets the text of the context. -/
theorem getVariable_hydrate (h : name ∈ names) (vars : Variables) :
    getVariable (names.foldl (hydrateName lib contextData) vars) name =
      (getVariable vars name).or
        ((hydratedText lib contextData name).map fun text => ⟨some text, false⟩) := by
  induction names generalizing vars with
  | nil => cases h
  | cons key names ih =>
    rw [foldl_cons]
    by_cases hkey : key = name
    · rw [hkey]
      by_cases hagain : name ∈ names
      · rw [ih hagain, getVariable_hydrateName_same, Option.or_assoc, Option.or_self]
      · rw [getVariable_hydrate_of_not_mem lib hagain, getVariable_hydrateName_same]
    · have hrest : name ∈ names := (mem_cons.mp h).resolve_left (Ne.symm hkey)
      rw [ih hrest, getVariable_hydrateName_other lib hkey]

end Names

end Velnor.Trust
