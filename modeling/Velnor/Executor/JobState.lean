/-
  What a job accumulates while its steps run (executor.rs `JobExecutionState`,
  execution/composite_scopes.rs, execution/step_outcome.rs and the status half
  of execution/step_conditions.rs): recorded outcomes and conclusions, the
  conclusion scopes of the open composites, environment, outputs, search path
  and masks.

  The cancellation token belongs to the environment.  `cancelled` holds what a
  read of it gives; whoever reads the token sets the field first.
-/
import Velnor.Collections.OrderedMap
import Velnor.Context.Value
import Velnor.Runner.WorkflowCommand

namespace Velnor.Executor

open Collections Context Runner

abbrev StepId := Str

/-! ## Outcomes and scopes -/

/-- How a step ended. -/
inductive StepOutcome where
  | success
  | failure
  | cancelled
  | skipped
  deriving DecidableEq, Repr

/-- The conclusions of the steps inside an open composite. -/
structure CompositeConclusionFrame where
  stepId : StepId
  conclusions : OrderedMap StepId StepOutcome
  /-- Inner ids popped from nested scopes, out of the status scan's sight. -/
  descendants : List StepId

/-- Conclusion scopes of the open composites, innermost first.  The source keeps
    the ids of the frames in a second stack that moves with the first. -/
structure CompositeConclusionScopes where
  converted : List StepId
  frames : List CompositeConclusionFrame

namespace CompositeConclusionScopes

def initial : CompositeConclusionScopes := ⟨[], []⟩

variable (scopes : CompositeConclusionScopes)

def push (stepId : StepId) : CompositeConclusionScopes :=
  { scopes with frames := ⟨stepId, .empty, []⟩ :: scopes.frames }

/-- The popped scope's ids, direct and nested, also become descendants of the
    parent scope. -/
def pop (stepId : StepId) : CompositeConclusionScopes × List StepId :=
  match scopes.frames with
  | [] => (scopes, [])
  | frame :: parents =>
    if frame.stepId = stepId then
      let inner := frame.conclusions.keys ++ frame.descendants
      let parents := match parents with
        | [] => []
        | parent :: rest =>
          { parent with descendants := parent.descendants ++ inner } :: rest
      ({ scopes with frames := parents }, inner)
    else (scopes, [])

def convert (stepIds : List StepId) : CompositeConclusionScopes :=
  { scopes with converted := scopes.converted ++ stepIds }

/-- Every id of a scope that is still open. -/
def convertOpenScopes : CompositeConclusionScopes :=
  scopes.convert (scopes.frames.flatMap fun frame => frame.conclusions.keys ++ frame.descendants)

/-- A conclusion goes to the innermost open scope. -/
def record (stepId : StepId) (conclusion : StepOutcome) : CompositeConclusionScopes :=
  match scopes.frames with
  | [] => scopes
  | frame :: parents =>
    { scopes with
      frames := { frame with conclusions := frame.conclusions.insert stepId conclusion }
        :: parents }

/-- A standing failure: one that no ignored umbrella has converted. -/
def hasFailure (conclusions : OrderedMap StepId StepOutcome) : Bool :=
  conclusions.entries.any fun entry => entry.2 = .failure && entry.1 ∉ scopes.converted

def scopeHasFailure (conclusions : OrderedMap StepId StepOutcome) : Bool :=
  match scopes.frames with
  | [] => scopes.hasFailure conclusions
  | frame :: _ => scopes.hasFailure frame.conclusions

end CompositeConclusionScopes

/-! ## The job's state -/

/-- Without the output texts, which only logs show. -/
structure StepExecutionResult where
  exitCode : Int
  state : StepCommandState
  skipped : Bool
  failureIgnored : Bool

/-- Without the trust scope, the host paths and the two environment snapshots
    that only logs and stores read. -/
structure JobExecutionState where
  env : OrderedMap Str Str
  dynamicEnv : List (Str × Str)
  contextData : List (Str × ContextValue)
  outputs : OrderedMap StepId (OrderedMap Str Str)
  actionStates : OrderedMap StepId (OrderedMap Str Str)
  outcomes : OrderedMap StepId StepOutcome
  conclusions : OrderedMap StepId StepOutcome
  compositeScopes : CompositeConclusionScopes
  path : List Str
  masks : List Str
  cancelled : Bool

namespace JobExecutionState

/-- Nothing has run yet. -/
def fresh (env : OrderedMap Str Str)
    (contextData : List (Str × ContextValue)) : JobExecutionState :=
  ⟨env, [], contextData, .empty, .empty, .empty, .empty, .initial, [], [], false⟩

variable (state : JobExecutionState)

def withStepAction (stepId : StepId) : JobExecutionState :=
  { state with env := state.env.insert "GITHUB_ACTION" stepId }

def withCancelled (cancelled : Bool) : JobExecutionState :=
  { state with cancelled := cancelled }

/-! ### Status -/

def successStatus : Bool :=
  !state.cancelled && !state.compositeScopes.scopeHasFailure state.conclusions

/-! ### Applying results -/

def outcomeOf (result : StepExecutionResult) : StepOutcome :=
  if result.skipped then .skipped else if result.exitCode = 0 then .success else .failure

def conclusionOf (result : StepExecutionResult) : StepOutcome :=
  if result.failureIgnored ∧ outcomeOf result = .failure then .success else outcomeOf result

def recordOutcome (state : JobExecutionState) (stepId : StepId)
    (outcome conclusion : StepOutcome) : JobExecutionState :=
  { state with
    outcomes := state.outcomes.insert stepId outcome
    conclusions := state.conclusions.insert stepId conclusion
    compositeScopes := state.compositeScopes.record stepId conclusion }

/-- The last value under a name, at its first position. -/
def upsert (entries : List (Str × Str)) (name value : Str) : List (Str × Str) :=
  if entries.any fun entry => entry.1 = name then
    entries.map fun entry => if entry.1 = name then (name, value) else entry
  else entries ++ [(name, value)]

variable (stepId : StepId)

/-- The command state a step leaves behind: outputs, saved state, environment,
    search path and masks. -/
def mergeCommandState (command : StepCommandState) : JobExecutionState :=
  let env := (OrderedMap.ofEntries command.env).entries
  { state with
    outputs := if command.outputs = [] then state.outputs
      else state.outputs.insert stepId (.ofEntries command.outputs)
    actionStates := if command.state = [] then state.actionStates
      else state.actionStates.insert stepId
        (((state.actionStates.get? stepId).getD .empty).extend command.state)
    env := state.env.extend env
    dynamicEnv := env.foldl (fun entries entry => upsert entries entry.1 entry.2) state.dynamicEnv
    path := command.path ++ state.path
    masks := state.masks ++ command.masks }

def apply (result : StepExecutionResult) : JobExecutionState :=
  (state.recordOutcome stepId (outcomeOf result) (conclusionOf result)).mergeCommandState
    stepId result.state

/-- A step killed by cancellation: never converted. -/
def applyCancelled (result : StepExecutionResult) : JobExecutionState :=
  (state.apply stepId result).recordOutcome stepId .cancelled .cancelled

def pushComposite : JobExecutionState :=
  { state with compositeScopes := state.compositeScopes.push stepId }

def popComposite : JobExecutionState × List StepId :=
  let popped := state.compositeScopes.pop stepId
  ({ state with compositeScopes := popped.1 }, popped.2)

def convertConclusions (state : JobExecutionState) (stepIds : List StepId) : JobExecutionState :=
  { state with compositeScopes := state.compositeScopes.convert stepIds }

def convertOpenCompositeScopes (state : JobExecutionState) : JobExecutionState :=
  { state with compositeScopes := state.compositeScopes.convertOpenScopes }

end JobExecutionState

end Velnor.Executor
