/-
  Well-bracketed step lists: every composite start has its end, and what stands
  between the two is well bracketed again.  `Plan` is that structure and
  `flatten` the list the loop runs over.

  `NoSilentDrop` is what a job owes its reader: a step without an outcome lies
  in an umbrella whose own outcome says why.  `guarded` is the shape of plan for
  which the loop keeps that promise.
-/
import Velnor.Executor.StepLoop

namespace Velnor.Executor

open Collections List

/-- A sequence of steps and composites, the rest of the sequence last. -/
inductive Plan where
  | done
  | action (step : ActionStep) (rest : Plan)
  | outputs (step : OutputsStep) (rest : Plan)
  | composite (umbrella : Umbrella) (body rest : Plan)
  deriving DecidableEq, Repr

namespace Plan

def flatten : Plan → List ExecutableStep
  | done => []
  | action step rest => .action step :: rest.flatten
  | outputs step rest => .compositeOutputs step :: rest.flatten
  | composite umbrella body rest =>
    .compositeStart umbrella :: (body.flatten ++ .compositeEnd umbrella.stepId :: rest.flatten)

/-! ## Ids -/

/-- The ids the steps record under. -/
def ids : Plan → List StepId
  | done => []
  | action step rest => step.stepId :: rest.ids
  | outputs step rest => step.stepId :: rest.ids
  | composite umbrella body rest => umbrella.stepId :: (body.ids ++ rest.ids)

def umbrellaIds : Plan → List StepId
  | done => []
  | action _ rest => rest.umbrellaIds
  | outputs _ rest => rest.umbrellaIds
  | composite umbrella body rest => umbrella.stepId :: (body.umbrellaIds ++ rest.umbrellaIds)

/-- Every step's id, except that an outputs step may record under the id of the
    composite it stands in, the `owner`. -/
def ownIds (owner : Option StepId) : Plan → List StepId
  | done => []
  | action step rest => step.stepId :: rest.ownIds owner
  | outputs step rest =>
    if some step.stepId = owner then rest.ownIds owner else step.stepId :: rest.ownIds owner
  | composite umbrella body rest =>
    umbrella.stepId :: (body.ownIds (some umbrella.stepId) ++ rest.ownIds owner)

def DistinctIds (plan : Plan) : Prop := (plan.ownIds none).Nodup

instance (plan : Plan) : Decidable plan.DistinctIds := inferInstanceAs (Decidable (List.Nodup _))

/-! ## Recorded outcomes -/

/-- Every step with the umbrellas it lies in, innermost first. -/
def located (path : List StepId) : Plan → List (List StepId × StepId)
  | done => []
  | action step rest => (path, step.stepId) :: rest.located path
  | outputs step rest => (path, step.stepId) :: rest.located path
  | composite umbrella body rest =>
    (path, umbrella.stepId) :: (body.located (umbrella.stepId :: path) ++ rest.located path)

end Plan

/-- The umbrella says that what it holds did not run to its end. -/
def Explains (outcomes : OrderedMap StepId StepOutcome) (umbrella : StepId) : Prop :=
  outcomes.get? umbrella = some .skipped ∨ outcomes.get? umbrella = some .failure

instance (outcomes : OrderedMap StepId StepOutcome) (umbrella : StepId) :
    Decidable (Explains outcomes umbrella) := inferInstanceAs (Decidable (_ ∨ _))

/-- Each step without a recorded outcome lies in an umbrella whose recorded
    outcome is skipped or failure. -/
def NoSilentDrop (outcomes : OrderedMap StepId StepOutcome) (plan : Plan) : Prop :=
  ∀ entry ∈ plan.located [], outcomes.get? entry.2 = none → ∃ umbrella ∈ entry.1,
    Explains outcomes umbrella

instance (outcomes : OrderedMap StepId StepOutcome) (plan : Plan) :
    Decidable (NoSilentDrop outcomes plan) := inferInstanceAs (Decidable (∀ _ ∈ _, _))

namespace Plan

/-- The same, level by level: an umbrella is recorded, and either explains its
    steps or has them accounted for. -/
def Accounted (outcomes : OrderedMap StepId StepOutcome) : Plan → Prop
  | done => True
  | action step rest => outcomes.get? step.stepId ≠ none ∧ rest.Accounted outcomes
  | outputs step rest => outcomes.get? step.stepId ≠ none ∧ rest.Accounted outcomes
  | composite umbrella body rest =>
    (outcomes.get? umbrella.stepId ≠ none ∧
      (Explains outcomes umbrella.stepId ∨ body.Accounted outcomes)) ∧ rest.Accounted outcomes

theorem Accounted.noSilentDrop {outcomes : OrderedMap StepId StepOutcome} {plan : Plan}
    (h : plan.Accounted outcomes) : NoSilentDrop outcomes plan := by
  -- an explaining umbrella of the path settles every step below it
  have key : ∀ (plan : Plan) (path : List StepId),
      (plan.Accounted outcomes ∨ ∃ umbrella ∈ path, Explains outcomes umbrella) →
      ∀ entry ∈ plan.located path, outcomes.get? entry.2 = none →
        ∃ umbrella ∈ entry.1, Explains outcomes umbrella := by
    intro plan
    induction plan with
    | done => intro path _ entry hentry; cases hentry
    | action step rest ih | outputs step rest ih =>
      intro path hpath entry hentry hnone
      rcases mem_cons.mp hentry with rfl | hentry
      · exact hpath.resolve_left fun hacc => hacc.1 hnone
      · exact ih path (hpath.imp_left And.right) entry hentry hnone
    | composite umbrella _ _ ihBody ihRest =>
      intro path hpath entry hentry hnone
      rcases mem_cons.mp hentry with rfl | hentry
      · exact hpath.resolve_left fun hacc => hacc.1.1 hnone
      rcases mem_append.mp hentry with hbody | hrest
      · refine ihBody _ ?_ entry hbody hnone
        rcases hpath with hacc | ⟨outer, houter, hexplains⟩
        · rcases hacc.1.2 with hexplains | hacc
          · exact .inr ⟨umbrella.stepId, mem_cons_self, hexplains⟩
          · exact .inl hacc
        · exact .inr ⟨outer, mem_cons_of_mem _ houter, hexplains⟩
      · exact ihRest path (hpath.imp_left And.right) entry hrest hnone
  exact key plan [] (.inl h)

/-- Later records leave a plan accounted for when they keep what its umbrellas
    say. -/
theorem Accounted.mono {before after : OrderedMap StepId StepOutcome} {plan : Plan}
    (hrecorded : ∀ id, before.get? id ≠ none → after.get? id ≠ none)
    (hsame : ∀ id ∈ plan.umbrellaIds, after.get? id = before.get? id)
    (h : plan.Accounted before) : plan.Accounted after := by
  induction plan with
  | done => trivial
  | action step rest ih | outputs step rest ih => exact ⟨hrecorded _ h.1, ih hsame h.2⟩
  | composite umbrella body rest ihBody ihRest =>
    have hown := hsame umbrella.stepId mem_cons_self
    have hbody : ∀ id ∈ body.umbrellaIds, after.get? id = before.get? id := fun id hid =>
      hsame id (mem_cons_of_mem _ (mem_append_left _ hid))
    have hrest : ∀ id ∈ rest.umbrellaIds, after.get? id = before.get? id := fun id hid =>
      hsame id (mem_cons_of_mem _ (mem_append_right _ hid))
    refine ⟨⟨hrecorded _ h.1.1, ?_⟩, ihRest hrest h.2⟩
    refine h.1.2.imp (fun hexplains => ?_) (ihBody hbody)
    unfold Explains at hexplains ⊢
    rwa [hown]

/-! ## The shape that keeps the promise -/

section Guard

variable (mayFail : Str → Bool)

/-- Some condition of an ordinary step at any depth may fail to evaluate. -/
def fallible : Plan → Bool
  | done => false
  | action step rest => (conditionText step.condition).any mayFail || rest.fallible
  | outputs step rest => (conditionText step.condition).any mayFail || rest.fallible
  | composite _ body rest => body.fallible || rest.fallible

def onlyOutputs : Plan → Bool
  | done => true
  | outputs _ rest => rest.onlyOutputs
  | action _ _ => false
  | composite _ _ _ => false

/-- Inside a composite, `clear` says that nothing but outputs steps follows in
    any composite around.  A nested composite that ignores its failures and may
    break must then be the last step but for outputs.  At the job's own level a
    break ends with the composite. -/
def guardedIn (clear : Option Bool) : Plan → Bool
  | done => true
  | action _ rest => rest.guardedIn clear
  | outputs _ rest => rest.guardedIn clear
  | composite umbrella body rest =>
    match clear with
    | none => body.guardedIn (some true) && rest.guardedIn none
    | some clear =>
      let last := clear && rest.onlyOutputs
      (!(umbrella.continueOnError && body.fallible mayFail) || last)
        && body.guardedIn (some last) && rest.guardedIn (some clear)

/-- No composite that ignores its failures, lies in another one and holds a
    condition that may fail is followed there by a step to run. -/
def guarded (plan : Plan) : Bool := plan.guardedIn mayFail none

end Guard

end Plan

end Velnor.Executor
