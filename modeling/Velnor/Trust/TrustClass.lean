/-
  The trust class of a job (trust_class.rs), derived from its message alone and
  failing closed.

  Three signals are read from a `github.*` variable or else from the `github`
  context: the event name, the base repository and the server of the job.  The
  payload of the event, the plan and the self repository resource are read once
  and in one way.
-/
import Velnor.Trust.Message

namespace Velnor.Trust

open Text Context

/-- `TrustClass`. -/
inductive TrustClass where
  | trusted
  | forkPR
  | unknown
  deriving DecidableEq, Repr

/-! ## Names and hosts -/

/-- `u8::is_ascii_whitespace`. -/
def isAsciiWhitespace (c : Char) : Bool :=
  c == ' ' || c == '\t' || c == '\n' || c == '\x0c' || c == '\r'

/-- `normalize_full_name`: `owner/repo`, trimmed. -/
def normalizeFullName (raw : Str) : Option Str :=
  let name := trim raw
  if name = [] ∨ name.any isAsciiWhitespace then none
  else
    match splitOnce? ['/'] name with
    | none => none
    | some (owner, repo) =>
      if owner = [] ∨ repo = [] ∨ '/' ∈ repo then none else some name

/-- `repository_eq`. -/
def repositoryEq (left right : Str) : Bool := eqIgnoreAsciiCase left right

/-- The event name as a signal: ASCII letters, digits and `_`, trimmed. -/
def wellFormedEvent (raw : Str) : Option Str :=
  let event := trim raw
  if event = [] ∨ ¬ event.all (fun c => c.isAlphanum || c == '_') then none else some event

/-- `is_pull_request_event`, on a well-formed name. -/
def isPullRequestEvent (event : Str) : Bool :=
  decide (12 ≤ event.length) && eqIgnoreAsciiCase (event.take 12) "pull_request"

/-- `is_workflow_run_event`. -/
def isWorkflowRunEvent (event : Str) : Bool := eqIgnoreAsciiCase event "workflow_run"

/-- What follows the last `@`. -/
def afterUserinfo (text : Str) : Str := (text.splitOn '@').getLast?.getD []

/-- A numeric port. -/
def isPort (port : Str) : Bool := decide (port ≠ []) && port.all Char.isDigit

/-- `authority_host`. -/
def authorityHost (authority : Str) : Option Str :=
  let withoutUserinfo := afterUserinfo authority
  if withoutUserinfo = [] ∨ withoutUserinfo.head? = some '[' then none
  else
    match withoutUserinfo.splitOn ':' with
    | [] => none
    | host :: ports =>
      if host = [] ∨ host.any isAsciiWhitespace then none
      else if ports.all isPort then some (toAsciiLowercase host)
      else none

/-- `server_url_host`. -/
def serverUrlHost (raw : Str) : Option Str :=
  let trimmed := trim raw
  if trimmed = [] then none
  else
    let afterScheme := ((splitOnce? "://" trimmed).map Prod.snd).getD trimmed
    authorityHost (afterScheme.takeWhile (· ≠ '/'))

/-- `split_scp_target`. -/
def splitScpTarget (url : Str) : Option (Str × Str) :=
  match splitOnce? [':'] url with
  | none => none
  | some (hostPart, path) =>
    if hostPart = [] ∨ '/' ∈ hostPart ∨ path = [] then none
    else if afterUserinfo hostPart = [] then none
    else some (afterUserinfo hostPart, path)

/-- A byte of a URL scheme. -/
def isSchemeChar (c : Char) : Bool := c.isAlphanum || c == '+' || c == '-' || c == '.'

/-- The host and path of a clone URL. -/
def cloneTarget (url : Str) : Option (Str × Str) :=
  match splitOnce? "://" url with
  | some (scheme, rest) =>
    if scheme = [] ∨ ¬ scheme.all isSchemeChar then none
    else
      match splitOnce? ['/'] rest with
      | none => none
      | some (authority, path) => (authorityHost authority).map fun host => (host, path)
  | none =>
    match splitScpTarget url with
    | none => none
    | some (host, path) =>
      if host.any isAsciiWhitespace then none else some (toAsciiLowercase host, path)

/-- `strip_suffix(".git").unwrap_or(repo)`. -/
def stripGit (repo : Str) : Str :=
  if ".git".toList.isSuffixOf repo then repo.dropLast.dropLast.dropLast.dropLast else repo

/-- The repository a path names: exactly two segments. -/
def pathRepository (path : Str) : Option Str :=
  match ((path.splitOn '/').map trim).filter (· ≠ []) with
  | [owner, segment] =>
    let repo := stripGit segment
    if owner = [] ∨ repo = [] then none else normalizeFullName (owner ++ '/' :: repo)
  | _ => none

/-- `clone_url_repository`. -/
def cloneUrlRepository (url expectedHost : Str) : Option Str :=
  match cloneTarget (trim url) with
  | none => none
  | some (host, path) =>
    if eqIgnoreAsciiCase host expectedHost then pathRepository path else none

/-! ## Signals -/

section Signals

variable (lib : Library)

/-- `trust_context_data`: the context values in key order, as one
    case-insensitive dictionary. -/
def trustContextData (job : AgentJobRequestMessage) : Option ContextValue :=
  (tryObject lib.simpleUppercase false
    (job.contextData.insertionSort fun a b => a.1 ≤ b.1)).toOption

/-- `job_variable`. -/
def jobVariable (job : AgentJobRequestMessage) (name : Str) : Option Str :=
  (getVariable job.variableMap name).bind VariableValue.value

/-- `context_value_string`. -/
def contextValueString : ContextValue → Option Str
  | .string value => some value
  | _ => none

variable (contextData : ContextValue) (object key : Str)

/-- `context_data.get(object)?.get(key)`. -/
def contextMember : Option ContextValue :=
  (contextData.get? lib.simpleUppercase object).bind (·.get? lib.simpleUppercase key)

/-- `context_string` of trust_class.rs. -/
def contextString : Option Str :=
  (contextMember lib contextData object key).bind contextValueString

variable (job : AgentJobRequestMessage) (contextData : ContextValue)

/-- `event_name`. -/
def eventName : Option Str :=
  ((jobVariable job "github.event_name").or
    (contextString lib contextData "github" "event_name")).bind wellFormedEvent

/-- `base_repository`. -/
def baseRepository : Option Str :=
  ((jobVariable job "github.repository").or
    (contextString lib contextData "github" "repository")).bind normalizeFullName

/-- `expected_clone_host`. -/
def expectedCloneHost : Option Str :=
  match jobVariable job "github.server_url" with
  | some raw => serverUrlHost raw
  | none =>
    match contextMember lib contextData "github" "server_url" with
    | none => some "github.com"
    | some value => (contextValueString value).bind serverUrlHost

/-- `plan_scope_present`. -/
def planScopePresent (job : AgentJobRequestMessage) : Bool := trim job.planId ≠ []

/-! ## The event payload -/

/-- `HeadBaseRepos`. -/
structure HeadBaseRepos where
  headFullName : Str
  headId : Option Str
  baseId : Option Str

/-- `numeric_ids_contradict`. -/
def HeadBaseRepos.numericIdsContradict (repos : HeadBaseRepos) : Bool :=
  match repos.headId, repos.baseId with
  | some head, some base => head ≠ base
  | _, _ => false

/-- `json_id`. -/
def jsonId : ContextValue → Option Str
  | .number (.posInt value) => some (Nat.toDigits 10 value.toNat)
  | .number (.negInt value) => some ('-' :: Nat.toDigits 10 value.toInt.natAbs)
  | .number (.float bits) => some (lib.doubleText bits)
  | .bigInteger digits => some digits
  | .string raw => if trim raw = [] then none else some (trim raw)
  | _ => none

/-- The member at the end of a path. -/
def memberAt (value : ContextValue) (path : List String) : Option ContextValue :=
  path.foldl (fun value key => value.bind (·.get? lib.simpleUppercase key.toList)) (some value)

/-- The payload that `with_github_event` projects: an object, or one encoded in
    a string. -/
def githubEvent (contextData : ContextValue) : Option ContextValue :=
  match contextMember lib contextData "github" "event" with
  | some (.string encoded) => lib.readJson encoded
  | some (.object caseSensitive entries) => some (.object caseSensitive entries)
  | _ => none

/-- Head and base of a payload, from the paths to the head repository and to
    the base repository. -/
def headBaseRepos (event : ContextValue) (head base : List String) : Option HeadBaseRepos :=
  match memberAt lib event head with
  | none => none
  | some headRepo =>
    match ((headRepo.get? lib.simpleUppercase "full_name").bind
        contextValueString).bind normalizeFullName with
    | none => none
    | some headFullName =>
      some ⟨headFullName, (headRepo.get? lib.simpleUppercase "id").bind (jsonId lib),
        ((memberAt lib event base).bind (·.get? lib.simpleUppercase "id")).bind (jsonId lib)⟩

/-- `pull_request_repos`. -/
def pullRequestRepos (contextData : ContextValue) : Option HeadBaseRepos :=
  (githubEvent lib contextData).bind fun event =>
    headBaseRepos lib event ["pull_request", "head", "repo"] ["pull_request", "base", "repo"]

/-- `workflow_run_repos`. -/
def workflowRunRepos (contextData : ContextValue) : Option HeadBaseRepos :=
  (githubEvent lib contextData).bind fun event =>
    headBaseRepos lib event ["workflow_run", "head_repository"] ["workflow_run", "repository"]

/-! ## The self repository -/

/-- The repository resource under the alias `self`, or else the first one. -/
def selfRepository (job : AgentJobRequestMessage) : Option RepositoryResource :=
  let repositories := job.repositories.filterMap id
  (repositories.find? fun repo => repo.repositoryAlias == some "self".toList).or repositories.head?

/-- The clone URL of a resource, under either spelling of its property. -/
def cloneUrl (repo : RepositoryResource) : Option ContextValue :=
  (repo.properties.get? lib.simpleUppercase "url").or
    (repo.properties.get? lib.simpleUppercase "cloneUrl")

/-- A clone URL that names the base repository on the expected host. -/
def corroborates (url : Option ContextValue) (expectedHost : Option Str) (base : Str) : Bool :=
  match url, expectedHost with
  | some (.string url), some host =>
    decide (trim url ≠ []) && (cloneUrlRepository url host).any fun repo => repositoryEq repo base
  | _, _ => false

/-- `repository_resources_contradict`. -/
def repositoryResourcesContradict (job : AgentJobRequestMessage) (contextData : ContextValue)
    (base : Str) : Bool :=
  match selfRepository job with
  | none => false
  | some repo => !corroborates (cloneUrl lib repo) (expectedCloneHost lib job contextData) base

/-! ## Derivation -/

/-- The head comparison of a fork-sensitive event, before the checks that follow. -/
def checkHead (base : Str) (repos : Option HeadBaseRepos) (rest : TrustClass) : TrustClass :=
  match repos with
  | none => .unknown
  | some repos =>
    if ¬ repositoryEq base repos.headFullName then .forkPR
    else if repos.numericIdsContradict then .unknown
    else rest

/-- `TrustClass::derive_with_context`. -/
def deriveWithContext (job : AgentJobRequestMessage) (contextData : ContextValue) : TrustClass :=
  match eventName lib job contextData with
  | none => .unknown
  | some event =>
    if ¬ planScopePresent job then .unknown
    else
      match baseRepository lib job contextData with
      | none => .unknown
      | some base =>
        let affirmed : TrustClass :=
          if repositoryResourcesContradict lib job contextData base then .unknown
          else .trusted
        if isPullRequestEvent event then
          checkHead base (pullRequestRepos lib contextData) affirmed
        else if isWorkflowRunEvent event then
          checkHead base (workflowRunRepos lib contextData) affirmed
        else affirmed

/-- `TrustClass::derive`. -/
def derive (job : AgentJobRequestMessage) : TrustClass :=
  match trustContextData lib job with
  | none => .unknown
  | some contextData => deriveWithContext lib job contextData

end Signals

end Velnor.Trust
