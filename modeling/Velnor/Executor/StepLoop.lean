/-
  The step loop (executor.rs `execute_steps`): composite frames, the lexical
  nesting counter with its two resume depths, and what each step records.

  Conditions, the actions themselves and the cancellation token belong to a
  `World`.  Log lines, timeline events, telemetry and the stack of post actions
  do not decide which steps run and are left out.
-/
import Velnor.Executor.JobState

namespace Velnor.Executor

open Collections Runner Text

/-! ## Steps -/

/-- A composite action's own step: `CompositeStart`. -/
structure Umbrella where
  stepId : StepId
  condition : Option Str
  continueOnError : Bool
  deriving DecidableEq, Repr

inductive ActionKind where
  | checkout | script | javaScript | docker | native
  deriving DecidableEq, Repr

/-- A step that runs something.  JavaScript and Docker actions may have a stage
    before the main one, with a condition of its own. -/
structure ActionStep where
  kind : ActionKind
  stepId : StepId
  condition : Option Str
  continueOnError : Bool
  pre : Option (Option Str)
  deriving DecidableEq, Repr

/-- `CompositeOutputs`: the bookkeeping step that maps a composite's outputs. -/
structure OutputsStep where
  stepId : StepId
  condition : Option Str
  deriving DecidableEq, Repr

inductive ExecutableStep where
  | compositeStart (umbrella : Umbrella)
  | compositeEnd (stepId : StepId)
  | action (step : ActionStep)
  | compositeOutputs (step : OutputsStep)
  deriving DecidableEq, Repr

/-- What an ordinary step, an action or an outputs step, brings to the loop. -/
structure OrdinaryStep where
  stepId : StepId
  condition : Option Str
  continueOnError : Bool
  pre : Option (Option Str)
  reportsTimelineStart : Bool

def ActionStep.ordinary (step : ActionStep) : OrdinaryStep :=
  ⟨step.stepId, step.condition, step.continueOnError, step.pre, true⟩

def OutputsStep.ordinary (step : OutputsStep) : OrdinaryStep :=
  ⟨step.stepId, step.condition, false, none, false⟩

/-! ## The world -/

/-- Where one iteration of the loop consults the world. -/
inductive Stage where
  | condition | preCondition | pre | main | close
  deriving DecidableEq, Repr

def Stage.rank : Stage → Nat
  | condition => 0
  | preCondition => 1
  | pre => 2
  | main => 3
  | close => 4

/-- What a run of an action's process leaves. -/
structure Execution where
  exitCode : Int
  state : StepCommandState

/-- What the loop cannot decide by itself: the verdict on a condition text, the
    result of a stage, what a failed script had written, and when the job is
    cancelled.  The first argument of each is the iteration. -/
structure World where
  evaluate : Nat → Stage → JobExecutionState → Str → Except Str Bool
  execute : Nat → Stage → JobExecutionState → OrdinaryStep → Except Str Execution
  salvaged : Nat → StepCommandState
  /-- The moment of cancellation, as `5 * iteration + stage`. -/
  cancelAt : Option Nat

/-- A token once cancelled stays so. -/
def World.cancelled (world : World) (iteration : Nat) (stage : Stage) : Bool :=
  world.cancelAt.any fun moment => moment ≤ 5 * iteration + stage.rank

def stripExpression (condition : Str) : Str :=
  match condition.dropPrefix? "$\x7b\x7b" with
  | none => condition
  | some rest =>
    match rest.dropSuffix? "\x7d\x7d" with
    | none => condition
    | some inner => trim inner

/-- The text to evaluate; nothing for an absent or blank condition. -/
def conditionText (condition : Option Str) : Option Str :=
  match condition.map trim with
  | none => none
  | some [] => none
  | some text => some (stripExpression text)

namespace World

variable (world : World)

variable (iteration : Nat) (state : JobExecutionState) (condition : Option Str)

/-- `evaluate_condition`: an absent condition is `success()`. -/
def evaluateCondition : Except Str Bool :=
  let state := state.withCancelled (world.cancelled iteration .condition)
  match conditionText condition with
  | none => .ok state.successStatus
  | some text => world.evaluate iteration .condition state text

/-- `evaluate_post_condition`: an absent condition holds. -/
def evaluatePreCondition : Except Str Bool :=
  let state := state.withCancelled (world.cancelled iteration .preCondition)
  match conditionText condition with
  | none => .ok true
  | some text => world.evaluate iteration .preCondition state text

end World

/-! ## Frames -/

/-- An open composite, without what only its log shows. -/
structure CompositeFrame where
  stepId : StepId
  exitCode : Int
  skipped : Bool
  continueOnError : Bool
  /-- The umbrella's own condition could not be evaluated. -/
  conditionFailed : Bool
  /-- How many results there were when it opened. -/
  resultsStart : Nat
  deriving DecidableEq, Repr

namespace CompositeFrame

variable (frame : CompositeFrame)

/-- The first standing failure decides. -/
def standing (exitCode : Int) (failureIgnored : Bool) : CompositeFrame :=
  if exitCode ≠ 0 ∧ failureIgnored = false ∧ frame.exitCode = 0 then
    { frame with exitCode := exitCode }
  else frame

def absorb (result : StepExecutionResult) : CompositeFrame :=
  frame.standing result.exitCode result.failureIgnored

def umbrellaResult (cancelled : Bool) : StepExecutionResult where
  exitCode := frame.exitCode
  state := {}
  skipped := frame.skipped
  failureIgnored :=
    frame.exitCode ≠ 0 && frame.continueOnError && !frame.conditionFailed && !cancelled

def mergeNested (nested : CompositeFrame) (nestedResult : StepExecutionResult) : CompositeFrame :=
  frame.standing nested.exitCode nestedResult.failureIgnored

end CompositeFrame

/-! ## The loop -/

/-- Frames are kept innermost first. -/
structure Loop where
  iteration : Nat
  state : JobExecutionState
  results : List StepExecutionResult
  frames : List CompositeFrame
  compositeDepth : Nat
  skipDepth : Option Nat
  breakDepth : Option Nat
  /-- The steps whose process was started, in order; the source counts them. -/
  executed : List StepId

def convertFrom (start : Nat) (results : List StepExecutionResult) : List StepExecutionResult :=
  results.take start
    ++ (results.drop start).map fun result => { result with failureIgnored := true }

namespace Loop

def start (state : JobExecutionState) : Loop := ⟨0, state, [], [], 0, none, none, []⟩

variable (loop : Loop) (stepId : StepId) (result : StepExecutionResult)

/-- `state.apply` and the push on `results`. -/
def record : Loop :=
  { loop with state := loop.state.apply stepId result, results := loop.results ++ [result] }

/-- The same for a step killed by cancellation. -/
def recordCancelled : Loop :=
  { loop with
    state := loop.state.applyCancelled stepId result
    results := loop.results ++ [result] }

def absorb (loop : Loop) (result : StepExecutionResult) : Loop :=
  match loop.frames with
  | [] => loop
  | frame :: parents => { loop with frames := frame.absorb result :: parents }

/-- The result of a step that failed without running. -/
def failed : StepExecutionResult := ⟨1, {}, false, false⟩

def skippedResult : StepExecutionResult := ⟨0, {}, true, false⟩

/-! ### Composite boundaries -/

def pushFrame (loop : Loop) (umbrella : Umbrella) (exitCode : Int) (skipped conditionFailed : Bool)
    (resultsStart : Nat) : Loop :=
  { loop with
    frames := ⟨umbrella.stepId, exitCode, skipped, umbrella.continueOnError, conditionFailed,
      resultsStart⟩ :: loop.frames }

/-- The verdict on the umbrella's condition comes from the enclosing scope,
    before its own is pushed. -/
def openComposite (world : World) (loop : Loop) (umbrella : Umbrella) : Loop :=
  if loop.skipDepth.isSome || loop.breakDepth.isSome then
    { loop with compositeDepth := loop.compositeDepth + 1 }
  else
    let verdict := world.evaluateCondition loop.iteration
      (loop.state.withStepAction umbrella.stepId) umbrella.condition
    let opened := { loop with
      state := loop.state.pushComposite umbrella.stepId
      compositeDepth := loop.compositeDepth + 1 }
    match verdict with
    | .ok true => opened.pushFrame umbrella 0 false false loop.results.length
    | .ok false =>
      { opened.pushFrame umbrella 0 true false loop.results.length with
        skipDepth := some loop.compositeDepth }
    | .error _ =>
      { opened.pushFrame umbrella 1 false true loop.results.length with
        skipDepth := some loop.compositeDepth
        results := loop.results ++ [failed] }

/-- The umbrella's result goes to the enclosing scope; when it is ignored, so
    are the results of its own steps. -/
def popFrame (loop : Loop) (cancelled : Bool) (stepId : StepId) (inner : List StepId)
    (frame : CompositeFrame) (parents : List CompositeFrame) : Loop :=
  let umbrella := frame.umbrellaResult cancelled
  let applied := loop.state.apply stepId umbrella
  { loop with
    state := if umbrella.failureIgnored then applied.convertConclusions inner else applied
    results := if umbrella.failureIgnored then convertFrom frame.resultsStart loop.results
      else loop.results
    frames := match parents with
      | [] => []
      | parent :: rest => parent.mergeNested frame umbrella :: rest }

/-- Leave the innermost composite: its scope and frame go, and a skip or break
    that started at this depth ends. -/
def close (world : World) (loop : Loop) (stepId : StepId) : Loop :=
  let popped := loop.state.popComposite stepId
  let resumed := { loop with
    state := popped.1
    skipDepth := none
    breakDepth := if loop.breakDepth.any fun resume => loop.compositeDepth ≤ resume then none
      else loop.breakDepth }
  match loop.frames with
  | [] => resumed
  | frame :: parents =>
    resumed.popFrame (world.cancelled loop.iteration .close) stepId popped.2 frame parents

def closesActiveFrame (loop : Loop) (stepId : StepId) : Bool :=
  match loop.frames with
  | [] => false
  | frame :: _ => frame.stepId = stepId

/-- A nested boundary inside a skipped or broken umbrella only moves the
    counter; a frame that is open always closes. -/
def closeComposite (world : World) (loop : Loop) (stepId : StepId) : Loop :=
  let depth := loop.compositeDepth - 1
  let lowered := { loop with compositeDepth := depth }
  if ((loop.skipDepth.any fun resume => resume < depth)
      || (loop.breakDepth.any fun resume => resume < depth))
      && !loop.closesActiveFrame stepId then
    lowered
  else lowered.close world stepId

/-! ### Ordinary steps -/

/-- Skipped regions pass over every step, broken ones over all but the outputs
    of the frames that are still open. -/
def passesOver (loop : Loop) (isOutputs : Bool) : Bool :=
  loop.skipDepth.isSome ||
    match loop.breakDepth with
    | none => false
    | some resume =>
      !(isOutputs && loop.compositeDepth ≤ loop.frames.length && resume < loop.compositeDepth)

/-- A condition that cannot be evaluated fails the step, and inside a composite
    breaks it. -/
def failCondition (loop : Loop) (step : OrdinaryStep) : Loop :=
  let absorbed := loop.absorb failed
  { absorbed.record step.stepId failed with
    breakDepth := if loop.frames.isEmpty then loop.breakDepth else some 0 }

/-- The result of a stage that ran, with `continue-on-error` applied. -/
def stageResult (world : World) (loop : Loop) (stage : Stage) (step : OrdinaryStep)
    (execution : Execution) : StepExecutionResult :=
  ⟨execution.exitCode, execution.state, false,
    execution.exitCode ≠ 0 && step.continueOnError && !world.cancelled loop.iteration stage⟩

def markExecuted (loop : Loop) (step : OrdinaryStep) : Loop :=
  if step.reportsTimelineStart then { loop with executed := loop.executed ++ [step.stepId] }
  else loop

variable (world : World) (loop : Loop)

/-- The stage before the main one; it says whether the main one follows. -/
def runPre (step : OrdinaryStep) : Loop × Bool :=
  let cancelled := world.cancelled loop.iteration .pre
  match world.execute loop.iteration .pre (loop.state.withStepAction step.stepId) step with
  | .ok execution =>
    let result := stageResult world loop .pre step execution
    (((loop.absorb result).record step.stepId result).markExecuted step, execution.exitCode = 0)
  | .error _ =>
    let result : StepExecutionResult := ⟨1, {}, false, step.continueOnError && !cancelled⟩
    let absorbed := loop.absorb result
    ((if cancelled then absorbed.recordCancelled step.stepId result
      else absorbed.record step.stepId result).markExecuted step, false)

def runMain (step : OrdinaryStep) : Loop :=
  match world.execute loop.iteration .main (loop.state.withStepAction step.stepId) step with
  | .ok execution =>
    let result := stageResult world loop .main step execution
    ((loop.absorb result).record step.stepId result).markExecuted step
  | .error _ =>
    let cancelled := world.cancelled loop.iteration .main
    let result : StepExecutionResult :=
      ⟨1, world.salvaged loop.iteration, false, step.continueOnError && !cancelled⟩
    let absorbed := loop.absorb result
    (if cancelled then absorbed.recordCancelled step.stepId result
      else absorbed.record step.stepId result).markExecuted step

/-- The stages of a step whose condition holds. -/
def runStages (step : OrdinaryStep) : Loop :=
  match step.pre with
  | none => loop.runMain world step
  | some condition =>
    match world.evaluatePreCondition loop.iteration (loop.state.withStepAction step.stepId)
        condition with
    | .error _ => (loop.absorb failed).record step.stepId failed
    | .ok false => loop.runMain world step
    | .ok true =>
      let ran := loop.runPre world step
      if ran.2 then ran.1.runMain world step else ran.1

def runOrdinary (step : OrdinaryStep) : Loop :=
  match world.evaluateCondition loop.iteration (loop.state.withStepAction step.stepId)
      step.condition with
  | .error _ => loop.failCondition step
  | .ok false => loop.record step.stepId skippedResult
  | .ok true => loop.runStages world step

/-! ### Whole runs -/

def dispatch : ExecutableStep → Loop
  | .compositeStart umbrella => loop.openComposite world umbrella
  | .compositeEnd stepId => loop.closeComposite world stepId
  | .action step =>
    if loop.passesOver false then loop else loop.runOrdinary world step.ordinary
  | .compositeOutputs step =>
    if loop.passesOver true then loop else loop.runOrdinary world step.ordinary

def step (step : ExecutableStep) : Loop :=
  { loop.dispatch world step with iteration := loop.iteration + 1 }

def run (steps : List ExecutableStep) : Loop :=
  steps.foldl (fun loop executable => loop.step world executable) loop

/-- Fold the frames a plan left open into the outermost one. -/
def foldFrames (cancelled : Bool) (nested : CompositeFrame) : List CompositeFrame → CompositeFrame
  | [] => nested
  | parent :: rest =>
    foldFrames cancelled (parent.mergeNested nested (nested.umbrellaResult cancelled)) rest

/-- What follows the loop: a composite whose end never came is recorded as
    failed. -/
def flush (world : World) (loop : Loop) : Loop :=
  match loop.frames with
  | [] => loop
  | innermost :: parents =>
    let cancelled := world.cancelled loop.iteration .close
    let frame := foldFrames cancelled innermost parents
    let frame := if frame.exitCode = 0 then { frame with exitCode := 1 } else frame
    let umbrella := frame.umbrellaResult cancelled
    let applied := loop.state.apply frame.stepId umbrella
    { loop with
      frames := []
      state := if umbrella.failureIgnored then applied.convertOpenCompositeScopes else applied
      results := if umbrella.failureIgnored then convertFrom frame.resultsStart loop.results
        else loop.results }

end Loop

/-- The step loop over a plan, with the flush that follows it. -/
def executeSteps (world : World) (state : JobExecutionState) (steps : List ExecutableStep) : Loop :=
  ((Loop.start state).run world steps).flush world

end Velnor.Executor
