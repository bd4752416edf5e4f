/-
  Composite actions and how a job with such actions becomes one list of steps
  (action.rs `composite_action_invocations_with_path`, runner.rs
  `ordered_executable_steps` and `append_resolved_action_steps`).

  A composite's steps are flattened in place.  A repository action that is a
  composite, and every composite at the job's own level, stands between a start
  and an end of its own; a local action that a composite uses is put in without
  them.

  A definition carries the definitions it uses, where the source finds them on
  disk or among the resolved actions, and conditions and flags are held as
  rendered for the flattened plan.
-/
import Velnor.Executor.Plan
import Velnor.Expression.Lexemes

namespace Velnor.Composite

open Executor Expression

/-! ## Step ids -/

def legalCharacter (c : Char) : Char :=
  if c.isAlphanum || c == '-' || c == '_' then c else '_'

/-- A segment the expression lexer takes for a word: other characters become an
    underscore, and one is put before a first character that may not stand
    first. -/
def expressionLegalSegment (value : Str) : Str :=
  let segment := value.map legalCharacter
  match segment with
  | [] => []
  | first :: _ => if first.isAlpha || first == '_' then segment else '_' :: segment

/-- The id of a composite's step: its own id behind that of the step that uses
    the composite, or its position where it has none. -/
def compositeStepId (parent : StepId) (id : Option Str) (index : Nat) : StepId :=
  let parent := expressionLegalSegment parent
  let named := id.map fun id => parent ++ '-' :: expressionLegalSegment id
  match named.filter fun value => value.getLast? ≠ some '-' with
  | some value => value
  | none => parent ++ '-' :: Nat.toDigits 10 (index + 1)

/-! ## Definitions -/

structure StepHeader where
  id : Option Str
  condition : Option Str
  continueOnError : Bool
  deriving DecidableEq, Repr

/-- What a step that uses no composite does.  Without `uses` and `run` it is
    left out of the plan. -/
inductive Leaf where
  | nothing
  | script
  | repository (kind : ActionKind) (pre : Option (Option Str))
  deriving DecidableEq, Repr

/-- The steps of a composite, the rest of the sequence last.  `outputs` says
    that the used action declares outputs. -/
inductive Steps where
  | done
  | leaf (header : StepHeader) (runs : Leaf) (rest : Steps)
  | localAction (header : StepHeader) (inner : Steps) (outputs : Bool) (rest : Steps)
  | repository (header : StepHeader) (inner : Steps) (outputs : Bool) (rest : Steps)
  deriving DecidableEq, Repr

/-- An action at the job's own level.  A composite whose condition is false
    already at planning has no definition. -/
inductive JobStep where
  | action (step : ActionStep)
  | composite (umbrella : Umbrella) (definition : Option (Steps × Bool))
  deriving DecidableEq, Repr

def JobStep.stepId : JobStep → StepId
  | action step => step.stepId
  | composite umbrella _ => umbrella.stepId

abbrev Job := List JobStep

/-! ## Planning -/

def Leaf.step (header : StepHeader) (stepId : StepId) : Leaf → Option ActionStep
  | nothing => none
  | script => some ⟨.script, stepId, header.condition, header.continueOnError, none⟩
  | repository kind pre => some ⟨kind, stepId, header.condition, header.continueOnError, pre⟩

/-- The step that maps an action's outputs runs whatever the action did. -/
def appendOutputs (outputs : Bool) (stepId : StepId) (rest : Plan) : Plan :=
  if outputs then .outputs ⟨stepId, some "always()"⟩ rest else rest

namespace Steps

/-- The flattened steps of a composite used by the step `parent`, before the
    plan `tail`. -/
def plan (parent : StepId) (index : Nat) (tail : Plan) : Steps → Plan
  | done => tail
  | leaf header runs rest =>
    let stepId := compositeStepId parent header.id index
    match runs.step header stepId with
    | none => rest.plan parent (index + 1) tail
    | some step => .action step (rest.plan parent (index + 1) tail)
  | localAction header inner outputs rest =>
    let stepId := compositeStepId parent header.id index
    inner.plan stepId 0 (appendOutputs outputs stepId (rest.plan parent (index + 1) tail))
  | repository header inner outputs rest =>
    let stepId := compositeStepId parent header.id index
    .composite ⟨stepId, header.condition, header.continueOnError⟩
      (inner.plan stepId 0 (appendOutputs outputs stepId .done))
      (rest.plan parent (index + 1) tail)

def maxLocalCompositeDepth : Nat := 16

/-- Local actions used by local actions, and so on, beyond the limit. -/
def exceedsDepth (depth : Nat) : Steps → Bool
  | done => false
  | leaf _ _ rest => rest.exceedsDepth depth
  | localAction _ inner _ rest =>
    decide (maxLocalCompositeDepth < depth + 1) || inner.exceedsDepth (depth + 1)
      || rest.exceedsDepth depth
  | repository _ inner _ rest => inner.exceedsDepth 0 || rest.exceedsDepth depth

/-- The definitions nested in this one, at any depth. -/
def innerScopes : Steps → List Steps
  | done => []
  | leaf _ _ rest => rest.innerScopes
  | localAction _ inner _ rest => inner :: (inner.innerScopes ++ rest.innerScopes)
  | repository _ inner _ rest => inner :: (inner.innerScopes ++ rest.innerScopes)

end Steps

namespace JobStep

def body (stepId : StepId) : Option (Steps × Bool) → Plan
  | none => .done
  | some (steps, outputs) => steps.plan stepId 0 (appendOutputs outputs stepId .done)

def plan (rest : Plan) : JobStep → Plan
  | action step => .action step rest
  | composite umbrella definition =>
    .composite umbrella (body umbrella.stepId definition) rest

def exceedsDepth : JobStep → Bool
  | action _ => false
  | composite _ none => false
  | composite _ (some (steps, _)) => steps.exceedsDepth 0

/-- The definitions a job's step uses, at any depth. -/
def scopes : JobStep → List Steps
  | action _ => []
  | composite _ none => []
  | composite _ (some (steps, _)) => steps :: steps.innerScopes

end JobStep

namespace Job

def layout (job : Job) : Plan := job.foldr (fun step rest => step.plan rest) .done

def plan (job : Job) : Except Str Plan :=
  if job.any JobStep.exceedsDepth then
    .error "nested local composite depth exceeds 16"
  else .ok job.layout

def orderedExecutableSteps (job : Job) : Except Str (List ExecutableStep) :=
  job.plan.map Plan.flatten

def scopes (job : Job) : List Steps := job.flatMap JobStep.scopes

theorem plan_eq_ok {job : Job} {plan : Plan} (h : job.plan = .ok plan) : plan = job.layout := by
  unfold Job.plan at h
  split at h
  · cases h
  · cases h
    rfl

/-- What the loop is given for a job within the depth limit. -/
theorem orderedExecutableSteps_eq_ok {job : Job} {steps : List ExecutableStep} :
    job.orderedExecutableSteps = .ok steps ↔
      job.any JobStep.exceedsDepth = false ∧ steps = job.layout.flatten := by
  unfold orderedExecutableSteps plan
  cases job.any JobStep.exceedsDepth with
  | true => exact ⟨nofun, nofun⟩
  | false => exact ⟨by rintro ⟨⟩; exact ⟨rfl, rfl⟩, by rintro ⟨-, rfl⟩; rfl⟩

end Job

end Velnor.Composite
