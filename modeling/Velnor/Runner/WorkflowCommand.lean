/-
  The workflow commands a step prints (workflow_command.rs): how a line is
  recognised as `::name properties::value`, and what each command does to the
  state the runner keeps for the step.

  The parser is a fold over the lines of one output, `parseLine` its step.
  `ParserState.stopped` is the token that `::stop-commands::` set, if
  processing is stopped.
-/
import Velnor.Relational.Transaction
import Velnor.Text.Str

namespace Velnor.Runner

open Text Relational

/-! ## Recognising a command -/

/-- A parsed command line. -/
structure WorkflowCommand where
  name : Str
  properties : List (Str × Str)
  value : Str
  deriving DecidableEq, Repr

/-- A line naming anything else is not a command at all. -/
def registeredCommands : List Str := [
  "stop-commands", "set-env", "set-output", "save-state",
  "add-mask", "add-path", "add-matcher", "remove-matcher",
  "debug", "warning", "error", "notice", "group",
  "endgroup", "echo"]

def isRegisteredCommand (name : Str) : Bool :=
  registeredCommands.any fun command => eqIgnoreAsciiCase command name

def unescapeData (value : Str) : Str :=
  replace "%25" ['%'] (replace "%0A" ['\n'] (replace "%0D" ['\r'] value))

def unescapeProperty (value : Str) : Str :=
  unescapeData (replace "%2C" [','] (replace "%3A" [':'] value))

/-- The entry a map keeps for a key is the last one inserted. -/
def insertEntry (map : List (Str × Str)) (key value : Str) : List (Str × Str) :=
  map.filter (fun entry => entry.1 ≠ key) ++ [(key, value)]

def valueOf? (map : List (Str × Str)) (key : Str) : Option Str :=
  (map.find? fun entry => entry.1 = key).map Prod.snd

def parseProperties (properties : Str) : List (Str × Str) :=
  (properties.splitOn ',').foldl (fun map property =>
    match splitOnce? ['='] property with
    | some (name, value) => insertEntry map name (unescapeProperty value)
    | none => map) []

/-- `::header::value`, after leading whitespace. -/
def commandParts? (line : Str) : Option (Str × Str) :=
  match (trimStart line).dropPrefix? [':', ':'] with
  | none => none
  | some rest => splitOnce? [':', ':'] rest

/-- The name of a header ends at its first blank. -/
def headerName (header : Str) : Str :=
  match splitOnce? [' '] header with
  | some (name, _) => name
  | none => header

def headerProperties (header : Str) : List (Str × Str) :=
  match splitOnce? [' '] header with
  | some (_, properties) => parseProperties properties
  | none => []

/-- The command of a line, if it holds one. -/
def parseWorkflowCommand (line : Str) (stoppedToken : Option Str) : Option WorkflowCommand :=
  match commandParts? line with
  | none => none
  | some (header, value) =>
    let name := headerName header
    -- while stopped the runner registers the resume token too
    if !isRegisteredCommand name && !stoppedToken.any fun token => eqIgnoreAsciiCase token name
    then none
    else some ⟨name, headerProperties header, unescapeData value⟩

/-! ## The step's command state -/

inductive StepAnnotationLevel where
  | notice
  | warning
  | failure
  deriving DecidableEq, Repr

structure StepAnnotation where
  level : StepAnnotationLevel
  message : Str
  title : Option Str
  path : Option Str
  startLine : Option Int
  endLine : Option Int
  startColumn : Option Int
  endColumn : Option Int
  deriving DecidableEq, Repr

structure StepCommandTelemetry where
  message : Str
  kind : Str
  deriving DecidableEq, Repr

/-- Without the summary, which no command writes. -/
structure StepCommandState where
  outputs : List (Str × Str) := []
  env : List (Str × Str) := []
  path : List Str := []
  state : List (Str × Str) := []
  masks : List Str := []
  annotations : List StepAnnotation := []
  telemetry : List StepCommandTelemetry := []
  errorCount : Nat := 0
  warningCount : Nat := 0
  noticeCount : Nat := 0
  commandFailed : Bool := false
  allowUnsecureStopCommandTokens : Bool := false
  deriving DecidableEq, Repr

/-- Which deprecation entries the job has published already. -/
structure DeprecatedCommandScope where
  setOutput : Bool := false
  saveState : Bool := false
  deriving DecidableEq, Repr

/-- What the job's environment allows. -/
structure CommandPolicy where
  allowUnsecureCommands : Bool
  allowUnsecureStopCommandTokens : Bool
  deriving DecidableEq, Repr

namespace StepCommandState

def plainAnnotation (level : StepAnnotationLevel) (message : Str) : StepAnnotation :=
  ⟨level, message, none, none, none, none, none, none⟩

variable (state : StepCommandState)

def pushError (message : Str) : StepCommandState :=
  let entry := plainAnnotation .failure message
  { state with
    errorCount := state.errorCount + 1
    annotations := state.annotations ++ [entry] }

def pushWarning (message : Str) : StepCommandState :=
  let entry := plainAnnotation .warning message
  { state with
    warningCount := state.warningCount + 1
    annotations := state.annotations ++ [entry] }

/-- A command that throws: the line, then the message, and the step fails. -/
def pushCommandFailure (line message : Str) : StepCommandState :=
  let reported := state.pushError ("Unable to process command '" ++ line ++ "' successfully.")
  { reported.pushError message with commandFailed := true }

def recordDeprecatedCommandTelemetry (telemetryEmitted : Bool) (command : Str) : StepCommandState :=
  if telemetryEmitted then state
  else { state with
    telemetry := state.telemetry ++ [⟨"DeprecatedCommand: " ++ command, "ActionCommand"⟩] }

/-- The effects of two outputs, the later one winning. -/
def merge (other : StepCommandState) : StepCommandState where
  outputs := other.outputs.foldl (fun map entry => insertEntry map entry.1 entry.2) state.outputs
  env := other.env.foldl (fun map entry => insertEntry map entry.1 entry.2) state.env
  path := state.path ++ other.path
  state := other.state.foldl (fun map entry => insertEntry map entry.1 entry.2) state.state
  masks := state.masks ++ other.masks
  annotations := state.annotations ++ other.annotations
  telemetry := other.telemetry.foldl
    (fun entries entry => if entry ∈ entries then entries else entries ++ [entry]) state.telemetry
  errorCount := state.errorCount + other.errorCount
  warningCount := state.warningCount + other.warningCount
  noticeCount := state.noticeCount + other.noticeCount
  commandFailed := state.commandFailed || other.commandFailed
  allowUnsecureStopCommandTokens :=
    state.allowUnsecureStopCommandTokens || other.allowUnsecureStopCommandTokens

end StepCommandState

/-! ## What each command does -/

def unsupportedCommandMessageDisabled (command : Str) : Str :=
  "The `" ++ command ++ "` command is disabled. Please upgrade to using Environment Files or " ++
    "opt into unsecure command execution by setting the `ACTIONS_ALLOW_UNSECURE_COMMANDS` " ++
    "environment variable to `true`. For more information see: https://github.blog/changelog/" ++
    "2020-10-01-github-actions-deprecating-set-env-and-add-path-commands/"

def unsupportedCommandMessage (command : Str) : Str :=
  "The `" ++ command ++ "` command is deprecated and will be disabled soon. Please upgrade to " ++
    "using Environment Files. For more information see: https://github.blog/changelog/" ++
    "2022-10-11-github-actions-deprecating-save-state-and-set-output-commands/"

def unsupportedStopCommandTokenDisabled : Str :=
  "You cannot use a endToken that is an empty string, the string 'pause-logging', or another " ++
    "workflow command. For more information see: " ++
    "https://docs.github.com/actions/learn-github-actions/" ++
    "workflow-commands-for-github-actions#example-stopping-and-starting-workflow-commands " ++
    "or opt into insecure command execution by setting the " ++
    "`ACTIONS_ALLOW_UNSECURE_STOPCOMMAND_TOKENS` environment variable to `true`."

def requiredNameMessage (command : Str) : Str :=
  "Required field 'name' is missing in ##[" ++ command ++ "] command."

/-- The `name` property, unless it is missing or empty. -/
def WorkflowCommand.nameProperty? (command : WorkflowCommand) : Option Str :=
  (valueOf? command.properties "name").filter fun name => name ≠ []

def stopCommandTokenIsInvalid (token : Str) : Bool :=
  decide (token = []) || isRegisteredCommand token || eqIgnoreAsciiCase token "pause-logging"

/-- UTF-16 code units. -/
def utf16Length (s : Str) : Nat := (s.map fun c => if c.toNat < 0x10000 then 1 else 2).sum

/-- The state and the stop token after `::stop-commands::token`. -/
def processStopCommands (state : StepCommandState) (token : Str) (policy : CommandPolicy) :
    StepCommandState × Option Str :=
  let invalid := stopCommandTokenIsInvalid token
  let state := if invalid then { state with
      telemetry := state.telemetry
        ++ [⟨"Invoked ::stopCommand:: with token: [" ++ token ++ [']'], "ActionCommand"⟩] }
    else state
  if invalid && !policy.allowUnsecureStopCommandTokens then
    (state.pushError unsupportedStopCommandTokenDisabled, none)
  else
    -- a long token is itself a secret
    (if 6 < utf16Length token then { state with masks := state.masks ++ [token] } else state,
      some token)

def setEnvBlockList : List Str := ["NODE_OPTIONS"]

def blockedSetEnvName (name : Str) : Option Str :=
  setEnvBlockList.find? fun blocked => eqIgnoreAsciiCase blocked name

/-- `set-env`, where it is allowed. -/
def processSetEnv (state : StepCommandState) (line : Str) (command : WorkflowCommand)
    (policy : CommandPolicy) : StepCommandState :=
  if !policy.allowUnsecureCommands then
    state.pushCommandFailure line (unsupportedCommandMessageDisabled "set-env")
  else
    match command.nameProperty? with
    | none => state.pushCommandFailure line (requiredNameMessage "set-env")
    | some name =>
      match blockedSetEnvName name with
      | some blocked =>
        state.pushError ("Can't update " ++ blocked
          ++ " environment variable using ::set-env:: command.")
      | none => { state with env := insertEntry state.env name command.value }

/-- `add-path`, where it is allowed. -/
def processAddPath (state : StepCommandState) (line value : Str) (policy : CommandPolicy) :
    StepCommandState :=
  if !policy.allowUnsecureCommands then
    state.pushCommandFailure line (unsupportedCommandMessageDisabled "add-path")
  else if value = [] then
    state.pushCommandFailure line "Value cannot be null. (Parameter 'path')"
  else { state with path := state.path.filter (fun path => path ≠ value) ++ [value] }

/-- What `set-output` and `save-state` share: a warning on every use, one
    telemetry entry a job, and the value stored under its name. -/
def processDeprecated (command : Str) (store : Str → Str → StepCommandState →
    StepCommandState) (state : StepCommandState) (telemetryEmitted : Bool) (line : Str)
    (parsed : WorkflowCommand) : StepCommandState :=
  let warned :=
    (state.pushWarning (unsupportedCommandMessage command)).recordDeprecatedCommandTelemetry
    telemetryEmitted command
  match parsed.nameProperty? with
  | none => warned.pushCommandFailure line (requiredNameMessage command)
  | some name => store name parsed.value warned

variable (state : StepCommandState) (telemetryEmitted : Bool) (line : Str)
  (command : WorkflowCommand)

/-- `set-output`, deprecated but honoured. -/
def processSetOutput : StepCommandState :=
  processDeprecated "set-output"
    (fun name value state => { state with outputs := insertEntry state.outputs name value })
    state telemetryEmitted line command

/-- `save-state`, deprecated but honoured. -/
def processSaveState : StepCommandState :=
  processDeprecated "save-state"
    (fun name value state => { state with state := insertEntry state.state name value })
    state telemetryEmitted line command

def rejectProblemMatcher (state : StepCommandState) (line command : Str) : StepCommandState :=
  state.pushCommandFailure line ("The `" ++ command
    ++ "` command is not supported by this runner: problem matchers are not implemented.")

def processEcho (state : StepCommandState) (line : Str) (command : WorkflowCommand) :
    StepCommandState :=
  if command.value = [] then
    state.pushCommandFailure line "Value cannot be null. (Parameter 'value')"
  else if toAsciiUppercase (trim command.value) ∈ ["ON".toList, "OFF".toList] then state
  else
    state.pushCommandFailure line
      ("Invalid echo command value. Possible values can be: 'on', 'off'. Current value is: '"
        ++ command.value ++ "'.")

/-- The whole value and each of its non-blank lines. -/
def maskCandidates (value : Str) : List Str :=
  value :: ((value.splitOnP fun c => c = '\r' ∨ c = '\n').map trim).filter fun line => line ≠ []

def processAddMask (state : StepCommandState) (value : Str) : StepCommandState :=
  if trim value = [] then
    state.pushWarning "Can't add secret mask for empty string in ##[add-mask] command."
  else { state with
    masks := (maskCandidates value).foldl
      (fun masks mask => if mask ∈ masks then masks else masks ++ [mask]) state.masks }

variable (properties : List (Str × Str)) (key : Str)

def annotationString : Option Str :=
  (valueOf? properties key).filter fun value => value ≠ []

def annotationNumber : Option Int := (valueOf? properties key).bind parseI64?

def commandAnnotation (level : StepAnnotationLevel) (command : WorkflowCommand) : StepAnnotation :=
  let number := annotationNumber command.properties
  { level
    message := command.value
    title := annotationString command.properties "title"
    path := annotationString command.properties "file"
    startLine := number "line"
    endLine := ((number "endLine").or (number "end_line")).or (number "line")
    startColumn := number "col"
    endColumn := ((number "endColumn").or (number "end_column")).or (number "col") }

/-! ## The parser -/

/-- What the loop over the lines carries. -/
structure ParserState where
  state : StepCommandState
  scope : DeprecatedCommandScope
  stopped : Option Str
  deriving DecidableEq, Repr

variable (policy : CommandPolicy) (p : ParserState) (line : Str)

/-- One recognised command while processing is not stopped. -/
def processCommand (command : WorkflowCommand) : ParserState :=
  let name := toAsciiLowercase command.name
  if name = "stop-commands" then
    let (state, stopped) := processStopCommands p.state command.value policy
    { p with state, stopped }
  else if name = "set-output" then
    { p with
      state := processSetOutput p.state p.scope.setOutput line command
      scope := { p.scope with setOutput := true } }
  else if name = "set-env" then
    { p with state := processSetEnv p.state line command policy }
  else if name = "add-path" then
    { p with state := processAddPath p.state line command.value policy }
  else if name = "save-state" then
    { p with
      state := processSaveState p.state p.scope.saveState line command
      scope := { p.scope with saveState := true } }
  else if name = "add-mask" then
    { p with state := processAddMask p.state command.value }
  else if name = "add-matcher" ∨ name = "remove-matcher" then
    { p with state := rejectProblemMatcher p.state line name }
  else if name = "echo" then
    { p with state := processEcho p.state line command }
  else if name = "error" then
    let entry := commandAnnotation .failure command
    { p with state := { p.state with
        errorCount := p.state.errorCount + 1
        annotations := p.state.annotations ++ [entry] } }
  else if name = "warning" then
    let entry := commandAnnotation .warning command
    { p with state := { p.state with
        warningCount := p.state.warningCount + 1
        annotations := p.state.annotations ++ [entry] } }
  else if name = "notice" then
    let entry := commandAnnotation .notice command
    { p with state := { p.state with
        noticeCount := p.state.noticeCount + 1
        annotations := p.state.annotations ++ [entry] } }
  -- `group`, `endgroup` and `debug` only render
  else p

/-- One line of the output. -/
def parseLine : ParserState :=
  match parseWorkflowCommand line p.stopped with
  | none => p
  | some command =>
    match p.stopped with
    -- only the name of the resume token counts, not its properties or data
    | some token => if eqIgnoreAsciiCase command.name token then { p with stopped := none } else p
    | none => processCommand policy p line command

def ParserState.start (policy : CommandPolicy) (scope : DeprecatedCommandScope) : ParserState where
  state := { allowUnsecureStopCommandTokens := policy.allowUnsecureStopCommandTokens }
  scope := scope
  stopped := none

/-- The state a step's output leaves, and the job's telemetry scope. -/
def parseWorkflowCommandsWithPolicy (output : Str) (policy : CommandPolicy)
    (scope : DeprecatedCommandScope) : StepCommandState × DeprecatedCommandScope :=
  let last := run (parseLine policy) (.start policy scope) (lines output)
  (last.state, last.scope)

/-- A step's two outputs are parsed one after the other, each from the start. -/
def parseWorkflowCommandsFromOutput (stdout stderr : Str) (policy : CommandPolicy)
    (scope : DeprecatedCommandScope) : StepCommandState × DeprecatedCommandScope :=
  let (state, scope) := parseWorkflowCommandsWithPolicy stdout policy scope
  let (other, scope) := parseWorkflowCommandsWithPolicy stderr policy scope
  (state.merge other, scope)

end Velnor.Runner
