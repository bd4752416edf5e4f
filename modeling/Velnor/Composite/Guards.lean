/-
  What a step that uses an action owes the steps inside it: they run only if its
  `if` held in the scope around it, and its `continue-on-error` shows in its own
  conclusion only.

  An umbrella keeps the first promise whatever the run does.  A local action that
  a composite uses is flattened without one, and nothing evaluates its `if`, nor
  the `success()` that an absent one stands for.  The promise is kept where such
  a step has nothing to run, or has no `if` and holds no step with one: the steps
  inside then ask for `success()` themselves.
-/
import Velnor.Composite.StepIds
import Velnor.Executor.CalmRun
import Velnor.Executor.Withheld

namespace Velnor.Composite

open Executor JobExecutionState Loop List Nat Bool Option

/-! ## The promise -/

/-- A step that uses an action, from the loop it is reached with to the loop
    after it; `flagged` gives the latter for another `continue-on-error`. -/
structure Honoured (world : World) (stepId : StepId) (condition : Option Str)
    (before after : Loop) (flagged : Bool → Loop) : Prop where
  guard : after.executed ≠ before.executed →
    world.evaluateCondition before.iteration (before.state.withStepAction stepId) condition =
      .ok true
  flag : ∀ value, Loop.AgreesBut stepId after (flagged value)

namespace Steps

/-- Every step of a definition that uses an action is honoured, at any depth,
    when the definition is reached with `loop`. -/
def Honours (world : World) (loop : Loop) (parent : StepId) (index : Nat) : Steps → Prop
  | done => True
  | leaf header runs rest =>
    rest.Honours world
      (loop.run world ((leaf header runs done).plan parent index .done).flatten) parent (index + 1)
  | localAction header inner outputs rest =>
    let stepId := compositeStepId parent header.id index
    let after (header : StepHeader) : Loop :=
      loop.run world ((localAction header inner outputs done).plan parent index .done).flatten
    Honoured world stepId header.condition loop (after header)
        (fun flag => after { header with continueOnError := flag }) ∧
      inner.Honours world loop stepId 0 ∧ rest.Honours world (after header) parent (index + 1)
  | repository header inner outputs rest =>
    let stepId := compositeStepId parent header.id index
    let after (header : StepHeader) : Loop :=
      loop.run world ((repository header inner outputs done).plan parent index .done).flatten
    Honoured world stepId header.condition loop (after header)
        (fun flag => after { header with continueOnError := flag }) ∧
      inner.Honours world (loop.step world
        (.compositeStart ⟨stepId, header.condition, header.continueOnError⟩)) stepId 0 ∧
      rest.Honours world (after header) parent (index + 1)

/-- No step of the definition starts a process. -/
def idle : Steps → Bool
  | done => true
  | leaf _ runs rest => runs = .nothing && rest.idle
  | localAction _ inner _ rest => inner.idle && rest.idle
  | repository _ inner _ rest => inner.idle && rest.idle

/-- No step that the definition flattens to has an `if`; what a repository action
    holds is behind the action's own. -/
def meek : Steps → Bool
  | done => true
  | leaf header _ rest => (conditionText header.condition).isNone && rest.meek
  | localAction _ inner _ rest => inner.meek && rest.meek
  | repository header _ _ rest => (conditionText header.condition).isNone && rest.meek

/-- A local action used in a definition has nothing to run; or it has no `if`,
    the steps inside have none either, and their ids are other than those of
    the steps before it, which are in `before`. -/
def shielded (before : List StepId) (parent : StepId) (index : Nat) : Steps → Bool
  | done => true
  | leaf header runs rest =>
    rest.shielded (before ++ ((leaf header runs done).plan parent index .done).ids) parent
      (index + 1)
  | localAction header inner outputs rest =>
    let stepId := compositeStepId parent header.id index
    (inner.idle || ((conditionText header.condition).isNone && inner.meek
        && (inner.plan stepId 0 .done).ids.all (· ∉ before)))
      && inner.shielded before stepId 0
      && rest.shielded (before ++ ((localAction header inner outputs done).plan parent index
          .done).ids) parent (index + 1)
  | repository header inner outputs rest =>
    inner.shielded before (compositeStepId parent header.id index) 0
      && rest.shielded (before ++ ((repository header inner outputs done).plan parent index
          .done).ids) parent (index + 1)

end Steps

namespace JobStep

def Honours (world : World) (loop : Loop) : JobStep → Prop
  | action _ => True
  | composite umbrella definition =>
    let after (umbrella : Umbrella) : Loop :=
      loop.run world ((composite umbrella definition).plan .done).flatten
    Honoured world umbrella.stepId umbrella.condition loop (after umbrella)
        (fun flag => after { umbrella with continueOnError := flag }) ∧
      match definition with
      | none => True
      | some (steps, _) =>
        steps.Honours world (loop.step world (.compositeStart umbrella)) umbrella.stepId 0

def shielded (before : List StepId) : JobStep → Bool
  | action _ => true
  | composite _ none => true
  | composite umbrella (some (steps, _)) => steps.shielded before umbrella.stepId 0

end JobStep

namespace Job

/-- Every step of the job that uses an action is honoured, reached with what the
    loop is after the steps before it. -/
def Honours (world : World) (state : JobExecutionState) (job : Job) : Prop :=
  ∀ front step back, job = front ++ step :: back →
    step.Honours world ((Loop.start state).run world (layout front).flatten)

/-- Every step is shielded, after steps with the ids `before`. -/
def shieldedAfter (before : List StepId) : Job → Bool
  | [] => true
  | step :: rest => step.shielded before && shieldedAfter (before ++ (step.plan .done).ids) rest

/-- Every local action that a definition of the job uses is shielded. -/
def shielded (job : Job) : Bool := shieldedAfter [] job

end Job

/-! ## Flattened definitions -/

theorem length_lt_compositeStepId (parent : StepId) (id : Option Str) (index : Nat) :
    parent.length < (compositeStepId parent id index).length := by
  rw [compositeStepId_eq, length_append, length_cons]
  have := length_le_expressionLegalSegment parent
  omega

variable {outputs : Bool} {stepId : StepId} {rest : Plan}

theorem idle_appendOutputs : (appendOutputs outputs stepId rest).idle = rest.idle := by
  unfold appendOutputs
  split <;> rfl

theorem meek_appendOutputs : (appendOutputs outputs stepId rest).meek = rest.meek := by
  unfold appendOutputs
  split <;> rfl

theorem umbrellaIds_sublist_ids (plan : Plan) : plan.umbrellaIds <+ plan.ids := by
  induction plan with
  | done => exact .slnil
  | action _ _ ih | outputs _ _ ih => exact ih.cons _
  | composite _ _ _ ihBody ihRest => exact (ihBody.append ihRest).cons_cons _

theorem mem_ids_appendOutputs {id : StepId} (h : id ∈ (appendOutputs outputs stepId rest).ids) :
    id = stepId ∨ id ∈ rest.ids := by
  unfold appendOutputs at h
  split at h
  · exact mem_cons.mp h
  · exact .inr h

variable (step : JobStep) {owner : Option StepId}

theorem nestedIn_done : Plan.NestedIn owner .done := trivial

theorem nestedIn_appendOutputs (h : rest.NestedIn owner) :
    (appendOutputs outputs stepId rest).NestedIn owner := by
  unfold appendOutputs
  split <;> exact h

theorem flatten_appendOutputs (outputs : Bool) (stepId : StepId) (rest : Plan) :
    (appendOutputs outputs stepId rest).flatten =
      (appendOutputs outputs stepId .done).flatten ++ rest.flatten := by
  unfold appendOutputs
  split <;> rfl

namespace Steps

variable (parent : StepId) (index : Nat) (tail : Plan) (steps : Steps)

theorem flatten_plan :
    (steps.plan parent index tail).flatten =
      (steps.plan parent index .done).flatten ++ tail.flatten := by
  induction steps generalizing parent index tail with
  | done => rfl
  | leaf _ runs _ ih =>
    cases runs with
    | nothing => exact ih parent (index + 1) tail
    | script | repository kind pre => exact congrArg (_ :: ·) (ih parent (index + 1) tail)
  | localAction header _ outputs rest ihInner ih =>
    have hinner := ihInner (compositeStepId parent header.id index) 0
    have houtputs := flatten_appendOutputs outputs (compositeStepId parent header.id index)
    unfold plan
    rw [hinner (appendOutputs _ _ (rest.plan parent (index + 1) tail)),
      hinner (appendOutputs _ _ (rest.plan parent (index + 1) .done)),
      houtputs (rest.plan parent (index + 1) tail), houtputs (rest.plan parent (index + 1) .done),
      ih parent (index + 1) tail]
    simp only [append_assoc]
  | repository _ _ _ _ _ ih =>
    unfold plan
    rw [Plan.flatten, Plan.flatten, ih parent (index + 1) tail]
    simp only [append_assoc, cons_append]

theorem idle_plan : (steps.plan parent index tail).idle = (steps.idle && tail.idle) := by
  induction steps generalizing parent index tail with
  | done => rfl
  | leaf _ runs _ ih =>
    cases runs with
    | nothing => exact ih parent (index + 1) tail
    | script | repository kind pre => rfl
  | localAction _ _ _ _ ihInner ih =>
    rw [plan, ihInner, idle_appendOutputs, ih, idle, Bool.and_assoc]
  | repository _ _ _ _ ihInner ih =>
    rw [plan, Plan.idle, ihInner, idle_appendOutputs, ih, idle, Plan.idle, Bool.and_true,
      Bool.and_assoc]

theorem meek_plan (h : steps.meek = true) (htail : tail.meek = true) :
    (steps.plan parent index tail).meek = true := by
  induction steps generalizing parent index tail with
  | done => exact htail
  | leaf _ runs _ ih =>
    obtain ⟨hcondition, hrest⟩ := and_eq_true_iff.mp h
    have htail' := ih parent (index + 1) tail hrest htail
    cases runs with
    | nothing => exact htail'
    | script | repository kind pre => exact and_eq_true_iff.mpr ⟨hcondition, htail'⟩
  | localAction _ _ _ _ ihInner ih =>
    obtain ⟨hinner, hrest⟩ := and_eq_true_iff.mp h
    refine ihInner _ 0 _ hinner ?_
    rw [meek_appendOutputs]
    exact ih parent (index + 1) tail hrest htail
  | repository _ _ _ _ _ ih =>
    obtain ⟨hcondition, hrest⟩ := and_eq_true_iff.mp h
    exact and_eq_true_iff.mpr ⟨hcondition, ih parent (index + 1) tail hrest htail⟩

variable {parent tail steps} {id : StepId}

/-- Ids grow with the depth. -/
theorem length_lt_of_mem_ids {index : Nat} (h : id ∈ (steps.plan parent index tail).ids) :
    parent.length < id.length ∨ id ∈ tail.ids := by
  induction steps generalizing parent index tail with
  | done => exact .inr h
  | leaf header runs _ ih =>
    cases runs with
    | nothing => exact ih h
    | script | repository kind pre =>
      rcases mem_cons.mp h with rfl | h
      · exact .inl (length_lt_compositeStepId parent header.id index)
      · exact ih h
  | localAction header _ _ _ ihInner ih =>
    have hlength := length_lt_compositeStepId parent header.id index
    rcases ihInner h with h | h
    · exact .inl (hlength.trans h)
    rcases mem_ids_appendOutputs h with rfl | h
    · exact .inl hlength
    · exact ih h
  | repository header _ _ _ ihInner ih =>
    have hlength := length_lt_compositeStepId parent header.id index
    rcases mem_cons.mp h with rfl | h
    · exact .inl hlength
    rcases mem_append.mp h with h | h
    · rcases ihInner h with h | h
      · exact .inl (hlength.trans h)
      rcases mem_ids_appendOutputs h with rfl | h
      · exact .inl hlength
      · cases h
    · exact ih h

/-- The body of a composite: the definition it uses, then its outputs. -/
abbrev body (stepId : StepId) (outputs : Bool) (steps : Steps) : Plan :=
  steps.plan stepId 0 (appendOutputs outputs stepId .done)

theorem length_le_of_mem_body {stepId : StepId} {outputs : Bool}
    (h : id ∈ (body stepId outputs steps).umbrellaIds) : stepId.length ≤ id.length := by
  rcases length_lt_of_mem_ids ((umbrellaIds_sublist_ids _).subset h) with h | h
  · exact le_of_lt h
  rcases mem_ids_appendOutputs h with rfl | h
  · exact le_refl _
  · cases h

/-- A composite around a step lies around what is inside the step. -/
theorem head_below (howner : ∀ id ∈ owner, id.length ≤ parent.length) (id : Option Str)
    (index : Nat) :
    ∀ other ∈ owner, other.length ≤ (compositeStepId parent id index).length := fun other h =>
  (howner other h).trans (le_of_lt (length_lt_compositeStepId parent id index))

theorem head_self (stepId : StepId) : ∀ id ∈ some stepId, id.length ≤ stepId.length :=
  fun _ hid => le_of_eq (congrArg length (some.inj hid).symm)

/-- No composite of a flattened definition has the id of one around it. -/
theorem nestedIn_plan (howner : ∀ id ∈ owner, id.length ≤ parent.length)
    (htail : tail.NestedIn owner) (index : Nat) (steps : Steps) :
    (steps.plan parent index tail).NestedIn owner := by
  induction steps generalizing owner parent index tail with
  | done => exact htail
  | leaf _ runs _ ih =>
    have hrest := ih howner htail (index + 1)
    cases runs with
    | nothing | script | repository kind pre => exact hrest
  | localAction _ _ _ _ ihInner ih =>
    exact ihInner (head_below howner _ _) (nestedIn_appendOutputs (ih howner htail (index + 1))) 0
  | repository header _ _ _ ihInner ih =>
    have hlength := length_lt_compositeStepId parent header.id index
    refine ⟨fun id hid heq => ?_, ihInner (head_self _) (nestedIn_appendOutputs nestedIn_done) 0,
      ih howner htail (index + 1)⟩
    have hle := howner id heq
    rcases mem_cons.mp hid with rfl | hid
    · exact lt_irrefl _ (hlength.trans_le hle)
    · have hbelow := length_le_of_mem_body hid
      omega

/-! ## Regions that are passed over -/

section Runs

variable {index} {world : World} {header : StepHeader} {inner : Steps}

section

variable (loop : Loop) (h : loop.Passing)
  (hhead : ∀ id ∈ loop.owner, id.length ≤ parent.length)
  (steps : Steps)
include h hhead

theorem run_passing :
    loop.run world (steps.plan parent index .done).flatten =
      loop.later (steps.plan parent index .done).flatten.length := by
  refine Loop.run_passing world _ loop h fun id hid heq => ?_
  have hids := (umbrellaIds_sublist_ids _).subset hid
  have hlength := (length_lt_of_mem_ids hids).resolve_right not_mem_nil
  exact lt_irrefl _ (hlength.trans_le (hhead id heq))

theorem honours_of_passing : steps.Honours world loop parent index := by
  induction steps generalizing loop parent index with
  | done => trivial
  | leaf _ _ _ ih =>
    rw [Honours, run_passing loop h hhead]
    exact ih (loop.later _) h hhead
  | localAction _ _ _ _ ihInner ih =>
    rw [Honours]
    dsimp only
    rw [run_passing loop h hhead]
    refine ⟨⟨fun hran => absurd rfl hran, fun flag => ?_⟩, ?_, ih (loop.later _) h hhead⟩
    · rw [run_passing loop h hhead]
      exact .refl _ _
    · exact ihInner loop h (head_below hhead _ _)
  | repository _ _ _ _ ihInner ih =>
    rw [Honours]
    dsimp only
    rw [step_start_counting world _ h.counts, run_passing loop h hhead]
    refine ⟨⟨fun hran => absurd rfl hran, fun flag => ?_⟩, ?_, ih (loop.later _) h hhead⟩
    · rw [run_passing loop h hhead]
      exact .refl _ _
    · exact ihInner loop.deeper h.deeper (head_below hhead _ _)

end

/-! ## Shielded definitions -/

variable {loop : Loop}

variable {umbrella : Umbrella}

/-- The loop in a composite it has reached outside skipped regions. -/
theorem honours_inside {before : List StepId} (h : loop.Steady owner)
    (hrecorded : loop.state.Throughout fun id _ => id ∈ before) {steps : Steps}
    (hhead : ∀ id ∈ owner, id.length ≤ umbrella.stepId.length)
    (hsteady : ∀ inside : Loop, inside.Steady (some umbrella.stepId) →
      (inside.state.Throughout fun id _ => id ∈ before) →
      steps.Honours world inside umbrella.stepId 0) :
    steps.Honours world (loop.step world (.compositeStart umbrella)) umbrella.stepId 0 := by
  rcases h.mode with hnormal | hbreaking
  · obtain ⟨_, hentered, ⟨hskip, -⟩ | ⟨hskip, -⟩⟩ := entered_step world hnormal umbrella
    · have hinside := normal_entered hnormal hentered hskip
      exact hsteady _ ⟨.inl hinside, hentered.owner⟩ (throughout_start world umbrella hrecorded)
    · refine honours_of_passing _ (hentered.passing hskip) (fun id hid => ?_) steps
      rw [hentered.owner] at hid
      rw [← some.inj hid]
  · rw [step_start_counting world umbrella (by rw [hbreaking.broken, isSome_some, Bool.or_true])]
    refine honours_of_passing loop.deeper (.inr ⟨hbreaking.skip, 0, hbreaking.broken,
      succ_pos _, lt_succ_of_le (le_of_eq hbreaking.depth.symm)⟩) (fun id hid => ?_) steps
    exact hhead id (h.owner ▸ hid)

theorem keeps_plan (h : loop.Steady owner) (hhead : ∀ id ∈ owner, id.length ≤ parent.length)
    (steps : Steps) :
    Loop.Keeps owner loop (loop.run world (steps.plan parent index .done).flatten) :=
  run_steady _ (nestedIn_plan hhead nestedIn_done index steps) h

/-- What the steps with the ids `ids` add to the recorded ones. -/
theorem recorded_run {before : List StepId} (plan : Plan)
    (h : loop.state.Throughout fun id _ => id ∈ before) :
    (loop.run world plan.flatten).state.Throughout fun id _ => id ∈ before ++ plan.ids := by
  refine throughout_run world plan (fun id hid _ => mem_append_right _ hid) ⟨?_, ?_⟩
  · exact fun id conclusion hget => mem_append_left _ (h.job id conclusion hget)
  · exact fun frame hframe id conclusion hget =>
      mem_append_left _ (h.scopes frame hframe id conclusion hget)

/-- Where `success()` is false, the steps of a local action without an `if` ask
    for it themselves and are skipped. -/
theorem guard_of_meek {before : List StepId} {stepId : StepId} {condition : Option Str}
    (h : loop.Steady owner) (hhead : ∀ id ∈ owner, id.length ≤ stepId.length)
    (hrecorded : loop.state.Throughout fun id _ => id ∈ before)
    (hcondition : conditionText condition = none) (hmeek : inner.meek = true)
    (hids : ∀ id ∈ (inner.plan stepId 0 .done).ids, id ∉ before)
    (hran : (loop.run world (inner.plan stepId 0 .done).flatten).executed ≠ loop.executed) :
    world.evaluateCondition loop.iteration (loop.state.withStepAction stepId) condition =
      .ok true := by
  by_contra hverdict
  exact hran (executed_run_of_refuses _ (meek_plan _ _ _ _ hmeek rfl)
    (nestedIn_plan hhead nestedIn_done 0 inner) h
    (refuses_of_verdict hrecorded hids hcondition hverdict))

theorem executed_run_localAction (loop : Loop) :
    (loop.run world
      ((localAction header inner outputs done).plan parent index .done).flatten).executed
      = (loop.run world
        (inner.plan (compositeStepId parent header.id index) 0 .done).flatten).executed := by
  rw [plan, flatten_plan, run_append]
  refine executed_run_of_idle world ?_ _
  rw [idle_appendOutputs]
  rfl

theorem honours_steps {before : List StepId} (loop : Loop) (h : loop.Steady owner)
    (hhead : ∀ id ∈ owner, id.length ≤ parent.length)
    (hrecorded : loop.state.Throughout fun id _ => id ∈ before) (steps : Steps)
    (hshielded : steps.shielded before parent index = true) :
    steps.Honours world loop parent index := by
  induction steps generalizing owner loop parent index before with
  | done => trivial
  | leaf _ _ _ ih =>
    exact ih _ (keeps_plan h hhead _).steady hhead (recorded_run _ hrecorded) hshielded
  | localAction header inner _ _ ihInner ih =>
    rw [shielded, and_eq_true_iff, and_eq_true_iff, or_eq_true_iff, and_eq_true_iff,
      and_eq_true_iff, List.all_eq_true] at hshielded
    obtain ⟨⟨hguard, hinner⟩, hrest⟩ := hshielded
    refine ⟨⟨fun hran => ?_, fun flag => .refl _ _⟩,
      ihInner loop h (head_below hhead _ _) hrecorded hinner,
      ih _ (keeps_plan h hhead _).steady hhead (recorded_run _ hrecorded) hrest⟩
    rw [executed_run_localAction] at hran
    rcases hguard with hidle | ⟨⟨hcondition, hmeek⟩, hids⟩
    · refine absurd (executed_run_of_idle world ?_ loop) hran
      rw [idle_plan, hidle]
      rfl
    · exact guard_of_meek h (head_below hhead _ _) hrecorded
        (isNone_iff_eq_none.mp hcondition) hmeek
        (fun id hid => of_decide_eq_true (hids id hid)) hran
  | repository header inner outputs _ ihInner ih =>
    have hnested :
        ((repository header inner outputs done).plan parent index .done).NestedIn owner :=
      nestedIn_plan hhead nestedIn_done index _
    obtain ⟨hinner, hrest⟩ := and_eq_true_iff.mp hshielded
    refine ⟨⟨fun hran => verdict_of_executed h hnested hran, fun flag => ?_⟩, ?_,
      ih _ (keeps_plan h hhead _).steady hhead (recorded_run _ hrecorded) hrest⟩
    · exact agreesBut_block h hnested flag
    exact honours_inside h hrecorded (head_below hhead _ _) fun inside hinside hrecordedInside =>
      ihInner inside hinside (head_self _) hrecordedInside hinner

end Runs

end Steps

/-! ## Jobs -/

namespace JobStep

theorem nestedIn_plan {rest : Plan} (h : rest.NestedIn none) : (step.plan rest).NestedIn none := by
  match step with
  | .action _ => exact h
  | .composite umbrella none => exact ⟨fun _ _ => nofun, trivial, h⟩
  | .composite umbrella (some (steps, outputs)) =>
    refine ⟨fun _ _ => nofun, ?_, h⟩
    exact Steps.nestedIn_plan (Steps.head_self _) (nestedIn_appendOutputs nestedIn_done) 0 steps

theorem honours_step {world : World} {loop : Loop} {before : List StepId}
    (h : loop.Steady none) (hrecorded : loop.state.Throughout fun id _ => id ∈ before)
    (step : JobStep) (hshielded : step.shielded before = true) : step.Honours world loop := by
  match step with
  | .action _ => trivial
  | .composite umbrella definition =>
    have hnested : (block umbrella (body umbrella.stepId definition)).NestedIn none :=
      nestedIn_plan (.composite umbrella definition) nestedIn_done
    refine ⟨⟨fun hran => verdict_of_executed h hnested hran,
      fun flag => agreesBut_block h hnested flag⟩, ?_⟩
    match definition with
    | none => trivial
    | some (steps, _) =>
      exact Steps.honours_inside h hrecorded nofun fun inside hinside hrecordedInside =>
        Steps.honours_steps inside hinside (Steps.head_self _) hrecordedInside steps hshielded

theorem flatten_plan (rest : Plan) :
    (step.plan rest).flatten = (step.plan .done).flatten ++ rest.flatten := by
  match step with
  | .action _ => rfl
  | .composite _ _ => exact flatten_composite ..

end JobStep

namespace Job

theorem nestedIn_layout (job : Job) : (layout job).NestedIn none := by
  induction job with
  | nil => exact nestedIn_done
  | cons step _ ih => exact step.nestedIn_plan ih

theorem honours_of_shieldedAfter {world : World} {before : List StepId} (job : Job) (loop : Loop)
    (h : loop.Steady none) (hrecorded : loop.state.Throughout fun id _ => id ∈ before)
    (hshielded : shieldedAfter before job = true) (front : Job) (step : JobStep) (back : Job)
    (hjob : job = front ++ step :: back) :
    step.Honours world (loop.run world (layout front).flatten) := by
  -- over the steps in front of it, whose ids join those recorded
  induction front generalizing job loop before with
  | nil =>
    subst hjob
    exact step.honours_step h hrecorded (and_eq_true_iff.mp hshielded).1
  | cons first front ih =>
    subst hjob
    have hsteady : (loop.run world (first.plan .done).flatten).Steady none :=
      (run_steady _ (first.nestedIn_plan nestedIn_done) h).steady
    rw [show layout (first :: front) = first.plan (layout front) from rfl, JobStep.flatten_plan,
      run_append]
    exact ih _ _ hsteady (Steps.recorded_run _ hrecorded) (and_eq_true_iff.mp hshielded).2 rfl

def pushOnly : Str := "github.event_name == 'push'"

/-- A composite `release` that uses a local action `notify` on a push only; the
    action has one script without a condition of its own. -/
def releaseJob : Job :=
  [.composite ⟨"release", none, false⟩ (some
    (.localAction ⟨some "notify", some pushOnly, false⟩
      (.leaf ⟨some "post", none, false⟩ .script .done) false .done, false))]

/-- A run on another event, in which all goes well. -/
def pullRequestRun : World where
  evaluate _ _ _ text := .ok (text ≠ pushOnly)
  execute _ _ _ _ := .ok ⟨0, {}⟩
  salvaged _ := {}
  cancelAt := none

/-- A composite that builds, uses a local action `notify` without an `if`, signs on
    a push only by a repository action, and uses a local action that does
    nothing. -/
def shippingJob : Job :=
  [.composite ⟨"ship", none, false⟩ (some
    (.leaf ⟨some "build", none, false⟩ .script
      (.localAction ⟨some "notify", none, true⟩
        (.leaf ⟨some "post", none, false⟩ .script .done) true
        (.repository ⟨some "sign", some pushOnly, false⟩
          (.leaf ⟨some "seal", some "always()", false⟩ .script .done) false
          (.localAction ⟨some "idle", some pushOnly, false⟩ .done false .done))), false))]

/-- Whatever conditions, actions and cancellation do, a job's loop ends with
    every composite closed and no resume depth set, so that the flush behind it
    has nothing to fail. -/
theorem executeSteps_closes_composites (world : World) (state : JobExecutionState) (job : Job) :
    executeSteps world state job.layout.flatten = (start state).run world job.layout.flatten ∧
      ((start state).run world job.layout.flatten).frames = [] ∧
      ((start state).run world job.layout.flatten).Normal := by
  have hkeeps : Loop.Keeps none (start state) ((start state).run world job.layout.flatten) :=
    run_steady _ (nestedIn_layout job) ⟨.inl ⟨rfl, rfl, rfl⟩, rfl⟩
  have hframes : ((start state).run world job.layout.flatten).frames = [] :=
    length_eq_zero_iff.mp hkeeps.frames.length_eq
  refine ⟨?_, hframes, hkeeps.steady.mode.resolve_right fun hbreaking => hbreaking.inside hframes⟩
  unfold executeSteps Loop.flush
  rw [hframes]

/-- Where conditions have a verdict, actions succeed and nobody cancels, no
    conclusion of the job is a failure, whatever was skipped. -/
theorem executeSteps_clean {world : World} (hcalm : Calm world) (job : Job)
    {state : JobExecutionState} (hclean : state.Clean) :
    (executeSteps world state job.layout.flatten).state.Clean := by
  have hsmooth : Loop.Smooth (start state) ((start state).run world job.layout.flatten) :=
    calm_run hcalm _ (nestedIn_layout job) ⟨rfl, rfl, rfl⟩
  have hframes : ((start state).run world job.layout.flatten).frames = [] := hsmooth.frames
  unfold executeSteps Loop.flush
  rw [hframes]
  exact hsmooth.clean hclean

theorem executeSteps_clean_pullRequest :
    (executeSteps pullRequestRun (.fresh .empty []) releaseJob.layout.flatten).state.Clean :=
  executeSteps_clean ⟨fun _ _ _ _ => ⟨_, rfl⟩, fun _ _ _ _ => ⟨_, rfl⟩, rfl⟩ releaseJob
    ⟨fun _ => nofun, nofun⟩

end Job

end Velnor.Composite
