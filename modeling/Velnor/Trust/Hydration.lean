/-
  Trust derivation before and after hydration.

  Hydration touches the variables of a message and nothing else, and derivation
  reads three of them.  A `Source` is all that either of the two sees of such a
  signal: the variable entry, the member of the `github` dictionary that
  derivation falls back to, and the text that hydration takes from the context.

  The two classes of a message come from two readings of the same sources.
  They differ exactly when the plan is there and one reading vouches for the
  job, or shows a head from another repository, and the other does not.
-/
import Velnor.Trust.JobContext

namespace Velnor.Trust

open Text Context Relational List Option

/-! ## Sources and readings -/

/-- Where one signal comes from. -/
structure Source where
  entry : Option VariableValue
  member : Option ContextValue
  hydrated : Option Str

namespace Source

variable (source : Source)

/-- The text of a signal: the variable, or else a string of the context. -/
def text : Option Str :=
  (source.entry.bind VariableValue.value).or (source.member.bind contextValueString)

/-- The host that a server signal names. -/
def host : Option Str :=
  match source.entry.bind VariableValue.value with
  | some raw => serverUrlHost raw
  | none =>
    match source.member with
    | none => some "github.com"
    | some value => (contextValueString value).bind serverUrlHost

/-- The source after hydration: an entry is kept, a missing one is filled. -/
def hydrate : Source :=
  { source with entry := source.entry.or (source.hydrated.map fun text => ⟨some text, false⟩) }

end Source

/-- The three signals that derivation reads from variables or context. -/
structure Sources where
  event : Source
  repository : Source
  server : Source

/-- The signals as derivation understands them. -/
structure Reading where
  event : Option Str
  base : Option Str
  host : Option Str

namespace Sources

variable (sources : Sources)

/-- The reading of a message's sources. -/
def reading : Reading where
  event := sources.event.text.bind wellFormedEvent
  base := sources.repository.text.bind normalizeFullName
  host := sources.server.host

/-- The sources after hydration. -/
def hydrate : Sources :=
  ⟨sources.event.hydrate, sources.repository.hydrate, sources.server.hydrate⟩

end Sources

/-! ## Messages -/

section Messages

variable (lib : Library) (job : AgentJobRequestMessage)

/-- The broker's `github` root. -/
def brokerGithub : Option ContextValue :=
  lookup lib.simpleUppercase false job.contextData "github"

/-- The context roots are a dictionary, and so is the `github` root, with these
    entries, or there is none. -/
structure Readable (entries : Entries) : Prop where
  rooted : WellRooted lib job.contextData
  broker : brokerEntries (brokerGithub lib job) = .ok entries

/-- The source of `github.<key>`.  Derivation reads the member under the key;
    hydration takes a flat root of the whole name, or else the last entry whose
    key is the same but for case, and any scalar but an empty text. -/
def sourceOf (entries : Entries) (name key : Str) : Source where
  entry := getVariable job.variableMap name
  member := (brokerGithub lib job).bind (·.get? lib.simpleUppercase key)
  hydrated := (pathText lib (lookup lib.simpleUppercase false job.contextData name)
    (lookup lib.simpleUppercase false entries.reverse key)).filter (· ≠ [])

/-- The sources of a message with these entries in its `github` root. -/
def sources (entries : Entries) : Sources :=
  ⟨sourceOf lib job entries "github.event_name" "event_name",
    sourceOf lib job entries "github.repository" "repository",
    sourceOf lib job entries "github.server_url" "server_url"⟩

/-- The class derived after hydration.  A message without a job context is
    completed as failed and never hydrated. -/
def deriveHydrated : TrustClass :=
  match jobContextData lib job with
  | .ok contextData => derive lib (hydrateGithubVariablesFromContext lib job contextData)
  | .error _ => derive lib job

/-- The event payload of the message. -/
def payload : Option ContextValue := githubEvent lib (.object false job.contextData)

/-- Head and base that the payload gives for an event that compares them; the
    outer `none` is an event that does not. -/
def comparedRepos (event : Str) : Option (Option HeadBaseRepos) :=
  if isPullRequestEvent event then
    some ((payload lib job).bind fun payload =>
      headBaseRepos lib payload ["pull_request", "head", "repo"] ["pull_request", "base", "repo"])
  else if isWorkflowRunEvent event then
    some ((payload lib job).bind fun payload =>
      headBaseRepos lib payload ["workflow_run", "head_repository"] ["workflow_run", "repository"])
  else none

/-- The event and the base repository are there, a head that is compared is of
    that repository and has no other id, and the clone URL of the self
    repository, if there is one, names it on the host. -/
def Reading.Vouches (reading : Reading) : Prop :=
  ∃ event ∈ reading.event, ∃ base ∈ reading.base,
    (∀ compared ∈ comparedRepos lib job event, ∃ repos ∈ compared,
      repositoryEq base repos.headFullName = true ∧ repos.numericIdsContradict = false) ∧
    ∀ repo ∈ selfRepository job, corroborates (cloneUrl lib repo) reading.host base = true

/-- The event and the base repository are there, and the head that is compared
    is of another repository. -/
def Reading.ShowsFork (reading : Reading) : Prop :=
  ∃ event ∈ reading.event, ∃ base ∈ reading.base,
    ∃ repos, comparedRepos lib job event = some (some repos) ∧
      repositoryEq base repos.headFullName = false

end Messages

/-! ## Classes and readings -/

section Derivation

variable {lib : Library} {job hydrated : AgentJobRequestMessage} {root : ContextValue}
  {entries result : Entries} {reading : Reading}

/-- What `derive_with_context` reads of a message, beside its variables. -/
structure ReadsAs (lib : Library) (job hydrated : AgentJobRequestMessage) (root : ContextValue)
    (reading : Reading) : Prop where
  event : eventName lib hydrated root = reading.event
  base : baseRepository lib hydrated root = reading.base
  host : expectedCloneHost lib hydrated root = reading.host
  payload : githubEvent lib root = payload lib job
  plan : planScopePresent hydrated = planScopePresent job
  self : selfRepository hydrated = selfRepository job

/-- The classes that the comparison of a head affirms. -/
theorem checkHead_eq_iff {base : Str} {repos : Option HeadBaseRepos} {contradict : Bool} :
    (checkHead base repos (if contradict then .unknown else .trusted) = .trusted ↔
      (∃ head ∈ repos, repositoryEq base head.headFullName = true ∧
        head.numericIdsContradict = false) ∧ contradict = false) ∧
    (checkHead base repos (if contradict then .unknown else .trusted) = .forkPR ↔
      ∃ head, repos = some head ∧ repositoryEq base head.headFullName = false) := by
  cases repos with
  | none => simp [checkHead]
  | some head =>
    cases hhead : repositoryEq base head.headFullName <;>
      cases hids : head.numericIdsContradict <;> cases contradict <;>
      simp [checkHead, hhead, hids]

section

variable (h : ReadsAs lib job hydrated root reading)
include h

/-- The head comparison of an event, and the checks behind it. -/
theorem deriveWithContext_eq (hplan : planScopePresent job = true) {event base : Str}
    (hevent : reading.event = some event) (hbase : reading.base = some base) :
    deriveWithContext lib hydrated root =
      match comparedRepos lib job event with
      | none => if repositoryResourcesContradict lib hydrated root base then .unknown else .trusted
      | some repos => checkHead base repos
        (if repositoryResourcesContradict lib hydrated root base then .unknown else .trusted) := by
  unfold deriveWithContext comparedRepos pullRequestRepos workflowRunRepos
  rw [h.event, hevent, h.base, hbase, h.payload, h.plan]
  simp only [hplan, not_true_eq_false, if_false]
  by_cases hpull : isPullRequestEvent event = true
  · simp only [if_pos hpull]
  by_cases hrun : isWorkflowRunEvent event = true
  · simp only [if_neg hpull, if_pos hrun]
  · simp only [if_neg hpull, if_neg hrun]

/-- Without the plan, the event or the base repository nothing is affirmed. -/
theorem present_of_ne_unknown
    (hne : deriveWithContext lib hydrated root ≠ .unknown) :
    planScopePresent job = true ∧ ∃ event, reading.event = some event ∧
      ∃ base, reading.base = some base := by
  unfold deriveWithContext at hne
  rw [h.event, h.base, h.plan] at hne
  cases hevent : reading.event with
  | none =>
    rw [hevent] at hne
    exact absurd rfl hne
  | some event =>
    rw [hevent] at hne
    dsimp only at hne
    by_cases hplan : planScopePresent job = true
    · rw [if_neg (not_not_intro hplan)] at hne
      cases hbase : reading.base with
      | none =>
        rw [hbase] at hne
        exact absurd rfl hne
      | some base => exact ⟨hplan, event, rfl, base, rfl⟩
    · exact absurd (if_pos hplan) hne

theorem not_contradict_iff (base : Str) :
    repositoryResourcesContradict lib hydrated root base = false ↔
      ∀ repo ∈ selfRepository job, corroborates (cloneUrl lib repo) reading.host base = true := by
  unfold repositoryResourcesContradict
  rw [h.self, h.host]
  cases selfRepository job with
  | none => simp
  | some repo => simp

/-- A job is trusted for a plan and a reading that vouches for it. -/
theorem deriveWithContext_eq_trusted_iff :
    deriveWithContext lib hydrated root = .trusted ↔
      planScopePresent job = true ∧ reading.Vouches lib job := by
  constructor
  · intro htrusted
    obtain ⟨hplan, event, hevent, base, hbase⟩ := present_of_ne_unknown h (by rw [htrusted]; nofun)
    refine ⟨hplan, event, hevent, base, hbase, ?_⟩
    rw [deriveWithContext_eq h hplan hevent hbase] at htrusted
    rw [← not_contradict_iff h]
    cases hcompared : comparedRepos lib job event with
    | none =>
      rw [hcompared] at htrusted
      refine ⟨nofun, ?_⟩
      by_contra hcontradict
      rw [Bool.not_eq_false] at hcontradict
      rw [hcontradict] at htrusted
      cases htrusted
    | some repos =>
      rw [hcompared] at htrusted
      obtain ⟨hhead, hclone⟩ := checkHead_eq_iff.1.mp htrusted
      exact ⟨fun _ hrepos => some.inj hrepos ▸ hhead, hclone⟩
  · rintro ⟨hplan, event, hevent, base, hbase, hhead, hclone⟩
    rw [deriveWithContext_eq h hplan hevent hbase]
    have hclone := (not_contradict_iff h base).mpr hclone
    cases hcompared : comparedRepos lib job event with
    | none =>
      rw [hclone]
      rfl
    | some repos => exact checkHead_eq_iff.1.mpr ⟨hhead repos hcompared, hclone⟩

/-- A job is a fork's for a plan and a reading that shows the fork. -/
theorem deriveWithContext_eq_forkPR_iff :
    deriveWithContext lib hydrated root = .forkPR ↔
      planScopePresent job = true ∧ reading.ShowsFork lib job := by
  constructor
  · intro hfork
    obtain ⟨hplan, event, hevent, base, hbase⟩ := present_of_ne_unknown h (by rw [hfork]; nofun)
    rw [deriveWithContext_eq h hplan hevent hbase] at hfork
    cases hcompared : comparedRepos lib job event with
    | none =>
      rw [hcompared] at hfork
      cases hcontradict : repositoryResourcesContradict lib hydrated root base <;>
        rw [hcontradict] at hfork <;> cases hfork
    | some repos =>
      rw [hcompared] at hfork
      obtain ⟨head, rfl, hne⟩ := checkHead_eq_iff.2.mp hfork
      exact ⟨hplan, event, hevent, base, hbase, head, hcompared, hne⟩
  · rintro ⟨hplan, event, hevent, base, hbase, head, hcompared, hne⟩
    rw [deriveWithContext_eq h hplan hevent hbase, hcompared]
    exact checkHead_eq_iff.2.mpr ⟨head, rfl, hne⟩

end

/-! ## The readings of a message -/

theorem derive_of_context (hroot : trustContextData lib job = some root) :
    derive lib job = deriveWithContext lib job root := by
  unfold derive
  rw [hroot]

theorem githubEvent_eq_payload (hroot : trustContextData lib job = some root) :
    githubEvent lib root = payload lib job := by
  unfold payload githubEvent
  rw [contextMember_eq hroot]
  rfl

/-- Derivation reads the sources as they are. -/
theorem readsAs_reading (hroot : trustContextData lib job = some root) (entries : Entries) :
    ReadsAs lib job job root (sources lib job entries).reading where
  event := by
    unfold eventName contextString
    rw [contextMember_eq hroot]
    rfl
  base := by
    unfold baseRepository contextString
    rw [contextMember_eq hroot]
    rfl
  host := by
    unfold expectedCloneHost
    rw [contextMember_eq hroot]
    rfl
  payload := githubEvent_eq_payload hroot
  plan := rfl
  self := rfl

/-- What both readers need of the key of a signal: its path, and that neither
    the assembled roots nor the seeds have it. -/
structure SignalKey (name key : Str) : Prop where
  hydrated : name ∈ hydratedNames
  path : name.splitOn '.' = ["github".toList, key]
  flat : ¬ isAssembledRoot name
  token : key.length ≠ "token".toList.length
  job : key.length ≠ "job".toList.length

theorem signalKeys : SignalKey "github.event_name" "event_name" ∧
    SignalKey "github.repository" "repository" ∧ SignalKey "github.server_url" "server_url" := by
  refine ⟨?_, ?_, ?_⟩ <;> exact ⟨mem_map_of_mem (by simp), by decide +kernel,
    by unfold isAssembledRoot; decide +kernel, by decide, by decide⟩

/-- The variable of a signal after hydration is the entry of its hydrated
    source. -/
theorem getVariable_hydrated (h : Readable lib job entries)
    (hok : jobContextData lib job = .ok result) {name key : Str} (hkey : SignalKey name key) :
    getVariable (hydrateGithubVariablesFromContext lib job result).variableMap name =
      (sourceOf lib job entries name key).hydrate.entry := by
  have htext : hydratedText lib result name = (sourceOf lib job entries name key).hydrated := by
    unfold hydratedText
    rw [contextPathString_eq h.rooted h.broker hok hkey.path hkey.flat hkey.token hkey.job]
    rfl
  exact (getVariable_hydrate lib hkey.hydrated job.variableMap).trans (by rw [htext]; rfl)

/-- After hydration derivation reads the hydrated sources. -/
theorem readsAs_hydrated (h : Readable lib job entries)
    (hroot : trustContextData lib job = some root) (hok : jobContextData lib job = .ok result) :
    ReadsAs lib job (hydrateGithubVariablesFromContext lib job result) root
      (sources lib job entries).hydrate.reading where
  event := by
    unfold eventName contextString jobVariable
    rw [contextMember_eq hroot, getVariable_hydrated h hok signalKeys.1]
    rfl
  base := by
    unfold baseRepository contextString jobVariable
    rw [contextMember_eq hroot, getVariable_hydrated h hok signalKeys.2.1]
    rfl
  host := by
    unfold expectedCloneHost jobVariable
    rw [contextMember_eq hroot, getVariable_hydrated h hok signalKeys.2.2]
    rfl
  payload := githubEvent_eq_payload hroot
  plan := rfl
  self := rfl

/-- A message that is not readable is not hydrated, or not trusted in any case. -/
theorem deriveHydrated_of_not_readable (h : ∀ entries, ¬ Readable lib job entries) :
    deriveHydrated lib job = derive lib job := by
  unfold deriveHydrated
  cases hok : jobContextData lib job with
  | error => rfl
  | ok result =>
    have hnone : trustContextData lib job = none := by
      by_contra hsome
      obtain ⟨root, hroot⟩ := ne_none_iff_exists'.mp hsome
      have hrooted := (trustContextData_eq_some_iff.mp hroot).2
      obtain ⟨entries, hbroker⟩ := brokerEntries_of_ok hrooted hok
      exact h entries ⟨hrooted, hbroker⟩
    have hunknown : ∀ other, trustContextData lib other = none → derive lib other = .unknown := by
      intro _ hother
      unfold derive
      rw [hother]
    -- the hydrated message has the context of the message
    have hhydrated := hunknown (hydrateGithubVariablesFromContext lib job result) hnone
    exact hhydrated.trans (hunknown job hnone).symm

end Derivation

/-! ## The result -/

theorem TrustClass.eq_iff {a b : TrustClass} :
    a = b ↔ (a = .trusted ↔ b = .trusted) ∧ (a = .forkPR ↔ b = .forkPR) := by
  cases a <;> cases b <;> simp

/-- A library whose uppercase table is that of ASCII. -/
def asciiLibrary : Library := ⟨Char.toUpper, fun _ => [], fun _ => [], fun _ => none⟩

/-- A message whose event name is the boolean `true`. -/
def booleanEventJob : AgentJobRequestMessage where
  planId := "plan"
  variableMap := []
  contextData := [("github", .object false
    [("event_name", .bool true), ("repository", .string "octo/base")])]
  contextKeys := List.nodup_singleton _
  repositories := []

end Velnor.Trust
