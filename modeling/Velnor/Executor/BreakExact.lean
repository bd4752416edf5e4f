/-
  Outside the guarded shape a run can drop a step silently, so the shape is
  exactly what the promise needs.

  The run that does it is plain: every condition holds and every action
  succeeds, except that one condition, at the iteration `target`, cannot be
  evaluated.  Up to that iteration nothing fails (`smooth_run`), there the
  composites break (`break_run`), and a composite around that ignores the
  failure lets every other umbrella end in success (`unguarded_run`).
-/
import Velnor.Executor.BreakSafety

namespace Velnor.Executor

open Collections JobExecutionState List Plan Bool CompositeConclusionScopes Nat CompositeFrame

/-! ## What the conclusions show -/

/-- Every conclusion of the map is as `p` says. -/
def Concludes (p : StepId → StepOutcome → Prop) (conclusions : OrderedMap StepId StepOutcome) :
    Prop :=
  ∀ id conclusion, conclusions.get? id = some conclusion → p id conclusion

variable {a b c : Loop} {ids : List StepId} {step : OrdinaryStep} {parents : List CompositeFrame}
    {umbrella : Umbrella} {conclusions : OrderedMap StepId StepOutcome} (loop : Loop)

section Concludes

variable {p : StepId → StepOutcome → Prop}

theorem Concludes.insert (h : Concludes p conclusions) {stepId : StepId}
    {conclusion : StepOutcome} (hp : p stepId conclusion) :
    Concludes p (conclusions.insert stepId conclusion) := by
  intro id other hget
  rw [OrderedMap.get?_insert] at hget
  split at hget
  · rename_i hid
    rw [hid, ← Option.some.inj hget]
    exact hp
  · exact h id other hget

/-- Every conclusion of any open scope, and every one of the job, is as `p` says. -/
structure JobExecutionState.Throughout (p : StepId → StepOutcome → Prop)
    (state : JobExecutionState) : Prop where
  job : Concludes p state.conclusions
  scopes : ∀ frame ∈ state.compositeScopes.frames, Concludes p frame.conclusions

namespace JobExecutionState

namespace Throughout

variable {state : JobExecutionState} {stepId : StepId}

theorem record (h : state.Throughout p) (outcome : StepOutcome)
    {conclusion : StepOutcome} (hp : p stepId conclusion) :
    (state.recordOutcome stepId outcome conclusion).Throughout p := by
  refine ⟨h.job.insert hp, fun frame hframe => ?_⟩
  change frame ∈ (state.compositeScopes.record stepId conclusion).frames at hframe
  unfold CompositeConclusionScopes.record at hframe
  split at hframe
  · exact h.scopes frame hframe
  case h_2 innermost parents heq =>
    rcases mem_cons.mp hframe with rfl | hframe
    · exact (h.scopes innermost (heq ▸ mem_cons_self)).insert hp
    · exact h.scopes frame (heq ▸ mem_cons_of_mem _ hframe)

theorem apply (h : state.Throughout p) (stepId : StepId) {result : StepExecutionResult}
    (hp : p stepId (conclusionOf result)) : (state.apply stepId result).Throughout p :=
  have hrecorded := h.record (outcomeOf result) hp
  ⟨hrecorded.job, hrecorded.scopes⟩

theorem pushComposite (h : state.Throughout p) (stepId : StepId) :
    (state.pushComposite stepId).Throughout p := by
  refine ⟨h.job, fun frame hframe => ?_⟩
  rcases mem_cons.mp hframe with rfl | hframe
  · exact fun id _ heq => absurd heq.symm (Option.some_ne_none _)
  · exact h.scopes frame hframe

theorem popComposite (h : state.Throughout p) (stepId : StepId) :
    (state.popComposite stepId).1.Throughout p := by
  refine ⟨h.job, fun frame hframe => ?_⟩
  change frame ∈ (state.compositeScopes.pop stepId).1.frames at hframe
  unfold pop at hframe
  split at hframe
  · exact h.scopes frame hframe
  case h_2 innermost parents heq =>
    split at hframe
    · cases parents with
      | nil => cases hframe
      | cons parent =>
        rcases mem_cons.mp hframe with rfl | hframe
        · exact h.scopes parent (heq ▸ mem_cons_of_mem _ mem_cons_self)
        · exact h.scopes frame (heq ▸ mem_cons_of_mem _ (mem_cons_of_mem _ hframe))
    · exact h.scopes frame hframe

theorem fresh (env : OrderedMap Str Str)
    (contextData : List (Str × Context.ContextValue)) : (fresh env contextData).Throughout p :=
  ⟨fun _ _ heq => absurd heq.symm (Option.some_ne_none _), nofun⟩

end Throughout

/-- No conclusion of any open scope, and none of the job, is a failure. -/
abbrev Clean (state : JobExecutionState) : Prop :=
  state.Throughout fun _ conclusion => conclusion ≠ .failure

theorem Clean.successStatus {state : JobExecutionState} (h : state.Clean) :
    (state.withCancelled false).successStatus = true := by
  have hnone : ∀ {conclusions : OrderedMap StepId StepOutcome},
      Concludes (fun _ conclusion => conclusion ≠ .failure) conclusions →
      state.compositeScopes.hasFailure conclusions = false := by
    intro conclusions hmap
    unfold CompositeConclusionScopes.hasFailure
    rw [any_eq_false]
    intro entry hentry hfailed
    exact hmap entry.1 entry.2 ((OrderedMap.mem_entries_iff _).mp hentry)
      (by simpa using (and_eq_true_iff.mp hfailed).1)
  have hscope : state.compositeScopes.scopeHasFailure state.conclusions = false := by
    unfold scopeHasFailure
    split
    · exact hnone h.job
    case h_2 frame rest heq => exact hnone (h.scopes frame (heq ▸ mem_cons_self))
  show (!false && !state.compositeScopes.scopeHasFailure state.conclusions) = true
  rw [hscope]
  rfl

end JobExecutionState

end Concludes

/-! ## One failing condition -/

/-- In this iteration conditions have a verdict, actions succeed and nobody
    cancels. -/
structure CalmAt (world : World) (iteration : Nat) : Prop where
  evaluates : ∀ stage state text, ∃ verdict, world.evaluate iteration stage state text = .ok verdict
  succeeds : ∀ stage state step,
    ∃ commands, world.execute iteration stage state step = .ok ⟨0, commands⟩
  uncancelled : world.cancelAt = none

namespace CalmAt

variable {world : World} {iteration : Nat} (h : CalmAt world iteration)
include h

variable (state : JobExecutionState) (condition : Option Str)

theorem evaluateCondition :
    ∃ verdict, world.evaluateCondition iteration state condition = .ok verdict := by
  unfold World.evaluateCondition
  split
  · exact ⟨_, rfl⟩
  · exact h.evaluates _ _ _

theorem evaluatePreCondition :
    ∃ verdict, world.evaluatePreCondition iteration state condition = .ok verdict := by
  unfold World.evaluatePreCondition
  split
  · exact ⟨_, rfl⟩
  · exact h.evaluates _ _ _

end CalmAt

/-- All goes well but for one condition. -/
def failingAt (mayFail : Str → Bool) (target : Nat) : World where
  evaluate iteration stage _ text :=
    if iteration = target ∧ stage = .condition ∧ mayFail text = true then .error []
    else .ok true
  execute _ _ _ _ := .ok ⟨0, {}⟩
  salvaged _ := {}
  cancelAt := none

section FailingAt

variable {mayFail : Str → Bool} {target : Nat}

theorem failsOnly_failingAt : Loop.FailsOnly (failingAt mayFail target) mayFail := by
  intro iteration _ text _ herror
  by_cases h : iteration = target ∧ Stage.condition = .condition ∧ mayFail text = true
  · exact h.2.2
  · change (if _ then _ else _) = _ at herror
    rw [if_neg h] at herror
    cases herror

variable {world : World} (hworld : world = failingAt mayFail target) {iteration : Nat}
  (hiteration : iteration ≠ target)
include hworld hiteration

theorem evaluateCondition_failingAt {state : JobExecutionState} (hclean : state.Clean)
    (condition : Option Str) :
    world.evaluateCondition iteration state condition = .ok true := by
  subst hworld
  unfold World.evaluateCondition
  split
  · exact congrArg Except.ok hclean.successStatus
  · exact if_neg fun heq => hiteration heq.1

theorem calmAt_failingAt : CalmAt world iteration :=
  hworld ▸ ⟨fun _ _ _ => ⟨true, if_neg fun heq => hiteration heq.1⟩, fun _ _ _ => ⟨{}, rfl⟩, rfl⟩

end FailingAt

namespace Loop

/-! ## Steps that succeed -/

variable {result : StepExecutionResult}

theorem absorb_of_exitCode_zero (h : result.exitCode = 0) : loop.absorb result = loop := by
  unfold absorb
  cases hframes : loop.frames with
  | nil => rfl
  | cons frame =>
    have hsame : frame.absorb result = frame := by
      unfold CompositeFrame.absorb
      rw [h]
      exact if_neg fun h => h.1 rfl
    dsimp only
    rw [hsame, ← hframes]

/-- Nothing failed on the way: frames and resume depths are as before. -/
structure Smooth (before after : Loop) : Prop where
  frames : after.frames = before.frames
  depth : after.compositeDepth = before.compositeDepth
  skip : after.skipDepth = before.skipDepth
  broken : after.breakDepth = before.breakDepth
  clean : before.state.Clean → after.state.Clean

namespace Smooth

variable {before after : Loop}

theorem refl : Smooth loop loop := ⟨rfl, rfl, rfl, rfl, fun h => h⟩

theorem trans (hab : Smooth a b) (hbc : Smooth b c) : Smooth a c :=
  ⟨hbc.frames.trans hab.frames, hbc.depth.trans hab.depth, hbc.skip.trans hab.skip,
    hbc.broken.trans hab.broken, fun h => hbc.clean (hab.clean h)⟩

theorem later (iterations : Nat) : Smooth loop (loop.later iterations) :=
  ⟨rfl, rfl, rfl, rfl, fun h => h⟩

theorem bind (hab : Smooth a b) (hbc : Smooth a b → Smooth b c) : Smooth a c := hab.trans (hbc hab)

theorem normal (h : Smooth before after) (hnormal : before.Normal) : after.Normal :=
  ⟨h.skip.trans hnormal.skip, h.broken.trans hnormal.unbroken,
    h.depth.trans (h.frames ▸ hnormal.depth)⟩

theorem markExecuted (h : Smooth before after) (step : OrdinaryStep) :
    Smooth before (after.markExecuted step) := by
  unfold Loop.markExecuted
  split
  · exact { h with }
  · exact h

end Smooth

/-- A result with exit code zero. -/
theorem smooth_record (stepId : StepId) (hexit : result.exitCode = 0) :
    Smooth loop (loop.record stepId result) := by
  have hconclusion : conclusionOf result ≠ .failure := by
    unfold conclusionOf outcomeOf
    rw [hexit]
    cases result.skipped <;> simp
  exact ⟨rfl, rfl, rfl, rfl, fun hclean => hclean.apply stepId hconclusion⟩

theorem smooth_stage (step : OrdinaryStep) (hexit : result.exitCode = 0) :
    Smooth loop (((loop.absorb result).record step.stepId result).markExecuted step) := by
  rw [loop.absorb_of_exitCode_zero hexit]
  exact (loop.smooth_record step.stepId hexit).markExecuted step

section Calm

variable {loop} {world : World} (hcalm : CalmAt world loop.iteration)
include hcalm

theorem calm_runMain (step : OrdinaryStep) : Smooth loop (loop.runMain world step) := by
  obtain ⟨_, hrun⟩ := hcalm.succeeds .main (loop.state.withStepAction step.stepId) step
  unfold runMain
  rw [hrun]
  exact loop.smooth_stage step rfl

theorem calm_runPre (step : OrdinaryStep) :
    Smooth loop (loop.runPre world step).1 ∧
      (loop.runPre world step).1.iteration = loop.iteration := by
  obtain ⟨_, hrun⟩ := hcalm.succeeds .pre (loop.state.withStepAction step.stepId) step
  unfold runPre
  rw [hrun]
  refine ⟨loop.smooth_stage step rfl, ?_⟩
  dsimp only
  rw [loop.absorb_of_exitCode_zero rfl]
  unfold Loop.markExecuted
  split <;> rfl

theorem calm_runStages (step : OrdinaryStep) : Smooth loop (loop.runStages world step) := by
  unfold runStages
  split
  · exact calm_runMain hcalm step
  next condition _ =>
    obtain ⟨verdict, hverdict⟩ := hcalm.evaluatePreCondition
      (loop.state.withStepAction step.stepId) condition
    rw [hverdict]
    cases verdict with
    | false => exact calm_runMain hcalm step
    | true =>
      obtain ⟨hpre, hiteration⟩ := calm_runPre hcalm step
      dsimp only
      split
      · exact hpre.trans (calm_runMain (hiteration ▸ hcalm) step)
      · exact hpre

theorem calm_step {executable : ExecutableStep}
    (hdispatch : loop.dispatch world executable = loop.runOrdinary world step) :
    Smooth loop (loop.step world executable) := by
  have hstep : Smooth loop (loop.runOrdinary world step) := by
    obtain ⟨verdict, hverdict⟩ := hcalm.evaluateCondition
      (loop.state.withStepAction step.stepId) step.condition
    unfold runOrdinary
    rw [hverdict]
    cases verdict with
    | true => exact calm_runStages hcalm step
    | false => exact loop.smooth_record step.stepId rfl
  rw [step_of_dispatch executable hdispatch]
  exact { hstep with }

end Calm

section FailingAt

variable {loop} {after last : Loop} {final : CompositeFrame} {world : World} {stepId : StepId}

/-! ## Composites -/

/-- The loop inside a composite whose condition holds. -/
def inside (loop : Loop) (umbrella : Umbrella) : Loop :=
  { loop with
    iteration := loop.iteration + 1
    state := loop.state.pushComposite umbrella.stepId
    frames := ⟨umbrella.stepId, 0, false, umbrella.continueOnError, false, loop.results.length⟩
      :: loop.frames
    compositeDepth := loop.compositeDepth + 1 }

theorem step_start_of_verdict (h : loop.Normal)
    (hverdict : world.evaluateCondition loop.iteration (loop.state.withStepAction umbrella.stepId)
      umbrella.condition = .ok true) :
    loop.step world (.compositeStart umbrella) = loop.inside umbrella := by
  unfold step dispatch openComposite
  simp only [h.counts, hverdict]
  rfl

theorem normal_inside (h : loop.Normal) (umbrella : Umbrella) : (loop.inside umbrella).Normal := by
  refine ⟨h.skip, h.unbroken, ?_⟩
  show loop.compositeDepth + 1 = loop.frames.length + 1
  rw [h.depth]

theorem clean_inside (h : loop.state.Clean) (umbrella : Umbrella) :
    (loop.inside umbrella).state.Clean := h.pushComposite umbrella.stepId

theorem advances_inside (hleft : Left world umbrella.stepId final loop.frames last after)
    (hrun : Advances ids (loop.inside umbrella) last) :
    Advances (umbrella.stepId :: ids) loop after := by
  have hdepth : (loop.inside umbrella).compositeDepth = loop.compositeDepth + 1 := rfl
  have houtcomes : (loop.inside umbrella).state.outcomes = loop.state.outcomes := rfl
  exact hleft.advances hdepth houtcomes hrun

theorem not_cancelled (h : world.cancelAt = none) (iteration : Nat) (stage : Stage) :
    world.cancelled iteration stage = false := by
  unfold World.cancelled
  rw [h]
  rfl

/-- A nested failure that its umbrella ignores, or none, leaves the parent as it
    was. -/
theorem mergeNested_ignored {nested : CompositeFrame} (parent : CompositeFrame)
    (h : nested.exitCode = 0 ∨ (nested.continueOnError = true ∧ nested.conditionFailed = false)) :
    parent.mergeNested nested (nested.umbrellaResult false) = parent := by
  refine if_neg fun hstands => ?_
  have hignored : (nested.umbrellaResult false).failureIgnored = true := by
    rcases h with hzero | ⟨hcoe, hcondition⟩
    · exact absurd hzero hstands.1
    · simp [umbrellaResult, hcoe, hcondition, hstands.1]
  rw [hignored] at hstands
  exact Bool.noConfusion hstands.2.1

theorem Left.frames_ignored (hcancel : world.cancelAt = none)
    (hleft : Left world stepId final loop.frames last after)
    (h : final.exitCode = 0 ∨ (final.continueOnError = true ∧ final.conditionFailed = false)) :
    after.frames = loop.frames := by
  rw [hleft.frames]
  cases loop.frames with
  | nil => rfl
  | cons parent =>
    dsimp only
    rw [not_cancelled hcancel, mergeNested_ignored parent h]

/-- An umbrella whose steps left it at zero is recorded as a success. -/
theorem Left.success (hcancel : world.cancelAt = none)
    (hleft : Left world stepId final parents loop after) (hskipped : final.skipped = false)
    (hzero : final.exitCode = 0) : after.state.outcomes.get? stepId = some .success := by
  rw [hleft.outcomes, OrderedMap.get?_insert_self]
  unfold umbrellaResult
  rw [hskipped, hzero, not_cancelled hcancel]
  rfl

theorem clean_close (world : World) (hclean : loop.state.Clean)
    (hframes : loop.frames = final :: parents) (hid : final.stepId = stepId)
    (hzero : final.exitCode = 0) : (loop.step world (.compositeEnd stepId)).state.Clean := by
  have hdispatch : loop.dispatch world (.compositeEnd stepId) =
      ({ loop with compositeDepth := loop.compositeDepth - 1 } : Loop).close world stepId :=
    closeComposite_active _ hframes hid
  rw [step_of_dispatch _ hdispatch]
  have hconclusion : conclusionOf
      (final.umbrellaResult (world.cancelled loop.iteration .close)) ≠ .failure := by
    unfold conclusionOf outcomeOf umbrellaResult
    rw [hzero]
    cases final.skipped <;> simp
  have happlied := (hclean.popComposite stepId).apply stepId hconclusion
  unfold close
  rw [hframes]
  unfold popFrame
  dsimp only
  split
  · exact ⟨happlied.job, happlied.scopes⟩
  · exact happlied

theorem iteration_run (world : World) (loop : Loop) (steps : List ExecutableStep) :
    (loop.run world steps).iteration = loop.iteration + steps.length := by
  induction steps generalizing loop with
  | nil => rfl
  | cons _ rest ih =>
    rw [run_cons, ih, length_cons]
    show loop.iteration + 1 + rest.length = _
    omega

theorem length_flatten_composite (umbrella : Umbrella) (body rest : Plan) :
    (Plan.composite umbrella body rest).flatten.length =
      body.flatten.length + rest.flatten.length + 2 := by
  rw [Plan.flatten, length_cons, length_append, length_cons]
  omega

/-- The end of a composite in which nothing failed. -/
theorem calm_close (hcancel : world.cancelAt = none) (h : loop.Normal)
    (hframes : last.frames = final :: loop.frames) (hid : final.stepId = stepId)
    (hzero : final.exitCode = 0) (hdepth : last.compositeDepth = loop.compositeDepth + 1)
    (hbroken : last.breakDepth = loop.breakDepth) (hclean : loop.state.Clean → last.state.Clean) :
    Smooth loop (last.step world (.compositeEnd stepId)) := by
  have hleft := left_step world hframes hid
  refine ⟨hleft.frames_ignored hcancel (.inl hzero), ?_, hleft.skip.trans h.skip.symm, ?_,
    fun hstart => clean_close world (hclean hstart) hframes hid hzero⟩
  · rw [hleft.depth, hdepth, Nat.add_sub_cancel]
  · rw [hleft.broken, hbroken, h.unbroken]
    rfl

theorem smooth_close (hcancel : world.cancelAt = none) (h : loop.Normal)
    (hbody : Smooth (loop.inside umbrella) last) :
    Smooth loop (last.step world (.compositeEnd umbrella.stepId)) :=
  calm_close hcancel h hbody.frames rfl rfl hbody.depth hbody.broken fun hclean =>
    hbody.clean (clean_inside hclean umbrella)

/-- Before the break: nothing failed, and `owner` is the innermost open
    composite. -/
structure Poised (owner : Option StepId) (loop : Loop) : Prop where
  normal : loop.Normal
  clean : loop.state.Clean
  owner : loop.owner = owner

variable {owner : Option StepId}

theorem Smooth.poised (hsmooth : Smooth loop after) (h : loop.Poised owner) : after.Poised owner :=
  ⟨hsmooth.normal h.normal, hsmooth.clean h.clean, (owner_congr hsmooth.frames).trans h.owner⟩

theorem Poised.inside (h : loop.Poised owner) (umbrella : Umbrella) :
    (loop.inside umbrella).Poised (some umbrella.stepId) :=
  ⟨normal_inside h.normal umbrella, clean_inside h.clean umbrella, rfl⟩

variable {mayFail : Str → Bool} {target : Nat} (hworld : world = failingAt mayFail target)
include hworld

theorem step_start (h : loop.Poised owner) (hiteration : loop.iteration ≠ target)
    (umbrella : Umbrella) : loop.step world (.compositeStart umbrella) = loop.inside umbrella :=
  step_start_of_verdict h.normal
    (evaluateCondition_failingAt hworld hiteration (by exact ⟨h.clean.job, h.clean.scopes⟩) _)

/-- Away from the failing condition nothing fails. -/
theorem smooth_run (plan : Plan) (h : loop.Poised owner)
    (htarget : target < loop.iteration ∨ loop.iteration + plan.flatten.length ≤ target) :
    Smooth loop (loop.run world plan.flatten) := by
  induction plan generalizing loop owner with
  | done => exact .refl loop
  | action step rest ih | outputs step rest ih =>
    rw [Plan.flatten, length_cons] at htarget
    refine Smooth.bind (calm_step (calmAt_failingAt hworld (by omega))
      (by exact if_neg (h.normal.not_passesOver _))) fun hstep => ih (hstep.poised h) ?_
    show target < loop.iteration + 1 ∨ loop.iteration + 1 + rest.flatten.length ≤ target
    omega
  | composite umbrella body rest ihBody ihRest =>
    rw [length_flatten_composite] at htarget
    rw [Plan.flatten, run_cons, run_append,
      step_start hworld h (show loop.iteration ≠ target by omega)]
    have hbody : Smooth (loop.inside umbrella) ((loop.inside umbrella).run world body.flatten) := by
      refine ihBody (h.inside umbrella) ?_
      show target < loop.iteration + 1 ∨ loop.iteration + 1 + body.flatten.length ≤ target
      omega
    have hclose : Smooth loop (Loop.step world ((loop.inside umbrella).run world body.flatten)
        (.compositeEnd umbrella.stepId)) := smooth_close (hworld ▸ rfl) h.normal hbody
    refine hclose.trans (ihRest (hclose.poised h) ?_)
    have hiteration : ((loop.inside umbrella).run world body.flatten).iteration =
        loop.iteration + 1 + body.flatten.length := iteration_run world _ body.flatten
    show target < ((loop.inside umbrella).run _ body.flatten).iteration + 1 ∨
      ((loop.inside umbrella).run _ body.flatten).iteration + 1 + rest.flatten.length ≤ target
    omega

/-- A composite away from the failing condition. -/
theorem smooth_composite (h : loop.Poised owner) (umbrella : Umbrella) (body : Plan)
    (htarget : loop.iteration + body.flatten.length < target) :
    Smooth loop (((loop.inside umbrella).run world body.flatten).step
      world (.compositeEnd umbrella.stepId)) :=
  smooth_close (hworld ▸ rfl) h.normal (smooth_run hworld body (h.inside umbrella)
    (.inr (show loop.iteration + 1 + body.flatten.length ≤ target by omega)))

/-! ## After the break -/

/-- Once the failing condition is behind, the frames stay as the break left
    them. -/
theorem smooth_breaking (plan : Plan) (h : loop.Breaking) (howner : loop.owner = owner)
    (hfresh : plan.Fresh owner) (htarget : target < loop.iteration) :
    Smooth loop (loop.run world plan.flatten) := by
  induction plan generalizing loop with
  | done => exact .refl loop
  | action step _ ih =>
    rw [Plan.flatten, run_cons, step_breaking_action world h]
    exact (Smooth.later loop 1).trans
      (ih (h.later 1) howner hfresh.of_action (lt_succ_of_lt htarget))
  | outputs step _ ih =>
    have hstep : Smooth loop (loop.step world (.compositeOutputs step)) :=
      calm_step (calmAt_failingAt hworld (ne_of_gt htarget)) (if_neg h.not_passesOver_outputs)
    refine hstep.trans (ih ?_ ((owner_congr hstep.frames).trans howner) hfresh.of_outputs
      (lt_succ_of_lt htarget))
    exact ⟨hstep.skip.trans h.skip, hstep.broken.trans h.broken,
      hstep.depth.trans (hstep.frames ▸ h.depth), hstep.frames ▸ h.inside⟩
  | composite _ _ rest _ ihRest =>
    rw [run_composite_breaking _ rest h (hfresh.owner_ne howner)]
    exact (Smooth.later loop _).trans (ihRest (h.later _) howner
      hfresh.rest_of_composite (lt_of_lt_of_le htarget (Nat.le_add_right ..)))

end FailingAt

/-- A step after the break that is not an outputs step keeps the record it
    had. -/
theorem run_breaking_drops (world : World) (plan : Plan) {loop : Loop} {owner : Option StepId}
    (h : loop.Breaking) (howner : loop.owner = owner)
    (hfresh : plan.Fresh owner) (honly : plan.onlyOutputs = false) :
    ∃ id ∈ plan.ownIds owner, ([], id) ∈ plan.located [] ∧
      (loop.run world plan.flatten).state.outcomes.get? id = loop.state.outcomes.get? id := by
  induction plan generalizing loop with
  | done => cases honly
  | action step rest =>
    refine ⟨step.stepId, mem_cons_self, mem_cons_self, ?_⟩
    rw [Plan.flatten, run_cons, step_breaking_action world h]
    exact (run_breaking world rest (h.later 1) howner hfresh.of_action).1.same _
      hfresh.action_notMem_rest
  | outputs step _ ih =>
    obtain ⟨hrecords, hnext⟩ := breaking_outputs world h step
    have hnextOwner := hrecords.advances.frames.head_stepId.trans howner
    obtain ⟨id, hid, hlocated, hsame⟩ := ih hnext hnextOwner hfresh.of_outputs honly
    refine ⟨id, ?_, mem_cons_of_mem _ hlocated, ?_⟩
    · exact (ownIds_outputs ..).subset hid
    · rw [Plan.flatten, run_cons, hsame]
      refine hrecords.advances.same id fun hmem => ?_
      exact hfresh.ne_outputs hid (mem_singleton.mp hmem)
  | composite umbrella _ rest =>
    refine ⟨umbrella.stepId, mem_cons_self, mem_cons_self, ?_⟩
    rw [run_composite_breaking world rest h (hfresh.owner_ne howner)]
    exact (run_breaking world rest (h.later _) howner hfresh.rest_of_composite).1.same _
      (hfresh.notMem_rest _ mem_cons_self)

end Loop

/-! ## Where to fail -/

namespace Plan

variable (mayFail : Str → Bool)

/-- The position of the first condition that may fail. -/
def firstFallible : Plan → Nat
  | done => 0
  | action step rest =>
    if (conditionText step.condition).any mayFail then 0 else rest.firstFallible + 1
  | outputs step rest =>
    if (conditionText step.condition).any mayFail then 0 else rest.firstFallible + 1
  | composite _ body rest =>
    if body.fallible mayFail then body.firstFallible + 1
    else body.flatten.length + rest.firstFallible + 2

/-- The position of a condition whose failure drops a step silently, in a plan
    without the guarded shape. -/
def dropPosition (clear : Option Bool) : Plan → Nat
  | done => 0
  | action _ rest => rest.dropPosition clear + 1
  | outputs _ rest => rest.dropPosition clear + 1
  | composite umbrella body rest =>
    let last := Loop.lastOf clear rest
    if clear.isSome && umbrella.continueOnError && body.fallible mayFail && !last then
      body.firstFallible mayFail + 1
    else if body.guardedIn mayFail (some last) then
      body.flatten.length + rest.dropPosition clear + 2
    else body.dropPosition (some last) + 1

end Plan

namespace Loop

section FailingAt

variable {loop} {mayFail : Str → Bool} {target : Nat} {world : World} {plan rest body : Plan}
  {last : Loop} {executable : ExecutableStep} {owner : Option StepId}
  {outcomes : OrderedMap StepId StepOutcome} {clear : Option Bool}

theorem firstFallible_lt (h : plan.fallible mayFail = true) :
    plan.firstFallible mayFail < plan.flatten.length := by
  induction plan with
  | done => cases h
  | action step rest ih | outputs step rest ih =>
    rw [fallible, or_eq_true] at h
    rw [Plan.firstFallible]
    split
    · exact succ_pos _
    case isFalse hhere => exact succ_lt_succ (ih (h.resolve_left hhere))
  | composite _ _ _ ihBody ihRest =>
    rw [fallible, or_eq_true] at h
    rw [firstFallible, length_flatten_composite]
    split
    case isTrue hbody =>
      have := ihBody hbody
      omega
    case isFalse hbody =>
      have := ihRest (h.resolve_left hbody)
      omega

/-- The failing condition breaks the composite it stands in. -/
theorem breaking_step (hworld : world = failingAt mayFail loop.iteration) (h : loop.Normal)
    (hopen : loop.frames ≠ []) (hmay : (conditionText step.condition).any mayFail = true)
    (hdispatch : loop.dispatch world executable = loop.runOrdinary world step) :
    (loop.step world executable).Breaking := by
  obtain ⟨_, htext, hfails⟩ := (Option.any_eq_true _ _).mp hmay
  have hverdict : world.evaluateCondition loop.iteration
      (loop.state.withStepAction step.stepId) step.condition = .error [] := by
    subst hworld
    unfold World.evaluateCondition
    rw [htext]
    exact if_pos ⟨rfl, rfl, hfails⟩
  have hrun : loop.runOrdinary world step = loop.failCondition step := by
    unfold runOrdinary
    rw [hverdict]
  have hbroken : (loop.failCondition step).breakDepth = some 0 := by
    show (if loop.frames.isEmpty then loop.breakDepth else some 0) = some 0
    rw [if_neg (by simpa using hopen)]
  rw [step_of_dispatch executable hdispatch]
  rcases (normal_ordinary world h step (loop.iteration + 1)).2 with hnormal | hbreaking
  · have hnone := hnormal.unbroken
    rw [hrun] at hnone
    exact absurd (hbroken.symm.trans hnone) (Option.some_ne_none _)
  · exact hbreaking.1

/-- A nested composite hands the break on to the one around it. -/
theorem breaking_close (hopen : loop.frames ≠ []) (hnormal : loop.Normal)
    (hbody : Advances ids (loop.inside umbrella) last) (hbreaking : last.Breaking) :
    ∃ final, last.frames = final :: loop.frames ∧
      (⟨umbrella.stepId, 0, false, umbrella.continueOnError, false, loop.results.length⟩ :
        CompositeFrame).Advances final ∧
      Left world umbrella.stepId final loop.frames last
        (last.step world (.compositeEnd umbrella.stepId)) ∧
      (last.step world (.compositeEnd umbrella.stepId)).Breaking := by
  obtain ⟨final, hfinal, hframe⟩ := hbody.frames
  have hleft := left_step world hfinal hframe.stepId_eq
  have hadv := advances_inside hleft hbody
  refine ⟨final, hfinal, hframe, hleft, hleft.skip, ?_, ?_, hadv.frames.ne_nil hopen⟩
  · rw [hleft.broken, hbreaking.broken, hbreaking.depth, hfinal]
    rw [if_neg (by simpa using hopen)]
  · rw [hadv.depth, hadv.frames.length_eq, hnormal.depth]

/-! ## The dropped step -/

/-- A step without a record, in umbrellas of the stretch that all succeeded. -/
def Dropped (owner : Option StepId) (plan : Plan) (outcomes : OrderedMap StepId StepOutcome) :
    Prop :=
  ∃ path id, (path, id) ∈ plan.located [] ∧ id ∈ plan.ownIds owner ∧ outcomes.get? id = none ∧
    ∀ umbrella ∈ path, umbrella ∈ plan.umbrellaIds ∧ outcomes.get? umbrella = some .success

theorem Dropped.not_noSilentDrop (h : Dropped owner plan outcomes) :
    ¬ NoSilentDrop outcomes plan := by
  intro hnone
  obtain ⟨_, _, hlocated, _, hid, hpath⟩ := h
  obtain ⟨umbrella, hmem, hexplains⟩ := hnone _ hlocated hid
  have hsuccess := (hpath umbrella hmem).2
  rcases hexplains with heq | heq
  · exact StepOutcome.noConfusion (Option.some.inj (heq.symm.trans hsuccess))
  · exact StepOutcome.noConfusion (Option.some.inj (heq.symm.trans hsuccess))

theorem located_append {path outer around : List StepId} {id : StepId}
    (h : (path, id) ∈ plan.located around) :
    (path ++ outer, id) ∈ plan.located (around ++ outer) := by
  induction plan generalizing around with
  | done => cases h
  | action step rest ih | outputs step rest ih =>
    rcases mem_cons.mp h with heq | h
    · cases heq
      exact mem_cons_self
    · exact mem_cons_of_mem _ (ih h)
  | composite _ _ _ ihBody ihRest =>
    rcases mem_cons.mp h with heq | h
    · cases heq
      exact mem_cons_self
    · rcases mem_append.mp h with h | h
      · exact mem_cons_of_mem _ (mem_append_left _ (ihBody h))
      · exact mem_cons_of_mem _ (mem_append_right _ (ihRest h))

/-- A step dropped in the body of an umbrella that succeeded. -/
theorem Dropped.of_body {before after : OrderedMap StepId StepOutcome}
    (h : Dropped (some umbrella.stepId) body before)
    (hsuccess : after.get? umbrella.stepId = some .success)
    (hsame : ∀ id ∈ body.ownIds (some umbrella.stepId), after.get? id = before.get? id) :
    Dropped owner (.composite umbrella body rest) after := by
  obtain ⟨path, id, hlocated, hid, hnone, hpath⟩ := h
  refine ⟨path ++ [umbrella.stepId], id, ?_, ?_, (hsame id hid).trans hnone, ?_⟩
  · exact mem_cons_of_mem _ (mem_append_left _ (located_append hlocated))
  · exact mem_cons_of_mem _ (mem_append_left _ hid)
  · intro outer houter
    rcases mem_append.mp houter with hmem | hmem
    · obtain ⟨humbrella, hrecorded⟩ := hpath outer hmem
      refine ⟨mem_cons_of_mem _ (mem_append_left _ humbrella), ?_⟩
      rw [hsame outer ((umbrellaIds_sublist_ownIds ..).subset humbrella), hrecorded]
    · cases mem_singleton.mp hmem
      exact ⟨mem_cons_self, hsuccess⟩

/-- In a longer plan. -/
theorem Dropped.mono (h : Dropped owner rest outcomes)
    (hlocated : rest.located [] ⊆ plan.located [])
    (hids : rest.ownIds owner ⊆ plan.ownIds owner)
    (humbrellas : rest.umbrellaIds ⊆ plan.umbrellaIds) :
    Dropped owner plan outcomes := by
  obtain ⟨path, id, hmem, hid, hnone, hpath⟩ := h
  exact ⟨path, id, hlocated hmem, hids hid, hnone,
    fun outer houter => (hpath outer houter).imp_left (humbrellas ·)⟩

theorem Dropped.of_rest (h : Dropped owner rest outcomes) :
    Dropped owner (.composite umbrella body rest) outcomes :=
  h.mono (fun _ h => mem_cons_of_mem _ (mem_append_right _ h))
    (fun _ h => mem_cons_of_mem _ (mem_append_right _ h))
    fun _ h => mem_cons_of_mem _ (mem_append_right _ h)

/-- How the run through a stretch without the guarded shape ends: inside a
    composite the break goes on with the frames as they were. -/
structure Drops (owner : Option StepId) (clear : Option Bool) (plan : Plan) (before after : Loop) :
    Prop where
  breaking : clear ≠ none → after.Breaking ∧ after.frames = before.frames
  dropped : Dropped owner plan after.state.outcomes ∨ clear = some false

theorem frames_ne_nil {clear : Bool} (howner : loop.owner = owner)
    (hclear : (some clear).isSome = owner.isSome) : loop.frames ≠ [] := by
  rintro hnil
  simp [← howner, hnil] at hclear

/-- The outermost composite ends a break. -/
theorem normal_close {after : Loop} {stepId : StepId} {final : CompositeFrame}
    (hbreaking : last.Breaking) (hfinal : last.frames = final :: loop.frames)
    (hjob : loop.frames = []) (hleft : Left world stepId final loop.frames last after) :
    after.Normal := by
  have hdepth : last.compositeDepth = 1 := by
    rw [hbreaking.depth, hfinal, hjob]
    rfl
  refine ⟨hleft.skip, ?_, ?_⟩
  · rw [hleft.broken, hbreaking.broken, hdepth]
    rfl
  · rw [hleft.depth, hdepth, hleft.frames, hjob]
    rfl

/-- What is wrong with a composite outside the guarded shape. -/
theorem guardedIn_composite_eq_false
    (h : (composite umbrella body rest).guardedIn mayFail clear = false)
    (hhere : (clear.isSome && umbrella.continueOnError && body.fallible mayFail &&
      !lastOf clear rest) = false)
    (hbody : body.guardedIn mayFail (some (lastOf clear rest)) = true) :
    rest.guardedIn mayFail clear = false := by
  cases clear with
  | none =>
    change body.guardedIn mayFail (some true) = true at hbody
    rw [guardedIn, hbody] at h
    exact h
  | some clear =>
    change body.guardedIn mayFail (some (clear && rest.onlyOutputs)) = true at hbody
    change (true && umbrella.continueOnError && body.fallible mayFail &&
      !(clear && rest.onlyOutputs)) = false at hhere
    have hshape : (!(umbrella.continueOnError && body.fallible mayFail) ||
        (clear && rest.onlyOutputs)) = true := by
      rw [Bool.true_and] at hhere
      rw [← Bool.not_not (_ || _), Bool.not_or, Bool.not_not, hhere]
      decide
    rw [guardedIn, hshape, hbody] at h
    exact h

theorem dropPosition_lt (h : plan.guardedIn mayFail clear = false) :
    plan.dropPosition mayFail clear < plan.flatten.length := by
  induction plan generalizing clear with
  | done => cases h
  | action step rest ih | outputs step rest ih => exact succ_lt_succ (ih h)
  | composite _ _ _ ihBody ihRest =>
    rw [dropPosition, length_flatten_composite]
    split
    case isTrue hhere =>
      have := firstFallible_lt (and_eq_true_iff.mp (and_eq_true_iff.mp hhere).1).2
      omega
    case isFalse hhere =>
      split
      case isTrue hbody =>
        have := ihRest (guardedIn_composite_eq_false h (eq_false_iff.mpr hhere) hbody)
        omega
      case isFalse hbody =>
        have := ihBody (eq_false_iff.mpr hbody)
        omega

/-! ## The run that drops it -/

variable (hworld : world = failingAt mayFail target)
include hworld

/-- An ordinary step before the break, or at it. -/
theorem break_ordinary (step : OrdinaryStep) (h : loop.Poised owner) (hrest : rest.Fresh owner)
    (hopen : loop.frames ≠ [])
    (hruns : ∀ world, loop.dispatch world executable = loop.runOrdinary world step)
    (hmay : ((conditionText step.condition).any mayFail || rest.fallible mayFail) = true)
    (htarget : target = loop.iteration +
      if (conditionText step.condition).any mayFail then 0 else rest.firstFallible mayFail + 1)
    (ih : ∀ loop : Loop, loop.Poised owner → loop.frames ≠ [] →
      rest.fallible mayFail = true → target = loop.iteration + rest.firstFallible mayFail →
      (loop.run world rest.flatten).Breaking) :
    ((loop.step world executable).run world rest.flatten).Breaking := by
  by_cases hhere : (conditionText step.condition).any mayFail = true
  · rw [if_pos hhere] at htarget
    subst htarget
    have hbreaking := breaking_step hworld h.normal hopen hhere (hruns _)
    have hrecords := (normal_ordinary world h.normal step (loop.iteration + 1)).1
    refine (run_breaking _ rest hbreaking ?_ hrest).2.1
    rw [step_of_dispatch _ (hruns _)]
    exact hrecords.advances.frames.head_stepId.trans h.owner
  · rw [if_neg hhere] at htarget
    have hstep := calm_step (calmAt_failingAt hworld (by omega)) (hruns _)
    refine ih _ (hstep.poised h) (hstep.frames ▸ hopen)
      ((or_eq_true_iff.mp hmay).resolve_left hhere) ?_
    show target = loop.iteration + 1 + rest.firstFallible mayFail
    omega

/-- What holds of every stretch, wherever the failing condition is. -/
theorem advances_run (plan : Plan) (h : loop.Normal) (howner : loop.owner = owner)
    (hfresh : plan.Fresh owner) : Advances plan.ids loop (loop.run world plan.flatten) := by
  have hworld : FailsOnly world mayFail := hworld ▸ failsOnly_failingAt
  have hclear : (owner.map fun _ => true).isSome = owner.isSome := Option.isSome_map ..
  exact (run_normal hworld plan h howner hclear hfresh False.elim).advances

theorem break_run (plan : Plan) (h : loop.Poised owner) (hfresh : plan.Fresh owner)
    (hopen : loop.frames ≠ []) (hmay : plan.fallible mayFail = true)
    (htarget : target = loop.iteration + plan.firstFallible mayFail) :
    (loop.run world plan.flatten).Breaking := by
  induction plan generalizing loop owner with
  | done => cases hmay
  | action step _ ih =>
    exact break_ordinary hworld step.ordinary h hfresh.of_action hopen
      (fun _ => if_neg (h.normal.not_passesOver _)) hmay htarget fun _ h => ih h hfresh.of_action
  | outputs step _ ih =>
    exact break_ordinary hworld step.ordinary h hfresh.of_outputs hopen
      (fun _ => if_neg (h.normal.not_passesOver _)) hmay htarget fun _ h => ih h hfresh.of_outputs
  | composite umbrella body rest ihBody ihRest =>
    have hinside := h.inside umbrella
    have hiteration : ((loop.inside umbrella).run world body.flatten).iteration =
        loop.iteration + 1 + body.flatten.length := iteration_run world _ body.flatten
    have hstart : loop.iteration ≠ target := by
      rw [firstFallible] at htarget
      split at htarget <;> omega
    rw [Plan.flatten, run_cons, run_append, step_start hworld h hstart]
    by_cases hbody : body.fallible mayFail = true
    · rw [firstFallible, if_pos hbody] at htarget
      have hbreaking := ihBody hinside hfresh.body_of_composite (cons_ne_nil _ _) hbody
        (show target = loop.iteration + 1 + body.firstFallible mayFail by omega)
      have hadv := advances_run hworld body hinside.normal rfl hfresh.body_of_composite
      obtain ⟨_, _, _, hleft, hstill⟩ := breaking_close hopen h.normal hadv hbreaking
      have howner := (advances_inside hleft hadv).frames.head_stepId.trans h.owner
      exact (run_breaking _ rest hstill howner hfresh.rest_of_composite).2.1
    · rw [firstFallible, if_neg hbody] at htarget
      have hclose := smooth_composite hworld h umbrella body (by omega)
      refine ihRest (hclose.poised h) hfresh.rest_of_composite (hclose.frames ▸ hopen)
        ((or_eq_true_iff.mp hmay).resolve_left hbody) ?_
      show target = ((loop.inside umbrella).run _ body.flatten).iteration + 1 + _
      omega

/-- An ordinary step in front of the stretch that drops one. -/
theorem drops_ordinary (step : OrdinaryStep) (h : loop.Poised owner)
    (hruns : ∀ world, loop.dispatch world executable = loop.runOrdinary world step)
    (hnew : ∀ id ∈ rest.ownIds owner, id ≠ step.stepId ∧ loop.state.outcomes.get? id = none)
    (htarget : target = loop.iteration + (rest.dropPosition mayFail clear + 1))
    (hdropped : ∀ outcomes, Dropped owner rest outcomes → Dropped owner plan outcomes)
    (ih : ∀ loop : Loop, loop.Poised owner →
      (∀ id ∈ rest.ownIds owner, loop.state.outcomes.get? id = none) →
      target = loop.iteration + rest.dropPosition mayFail clear →
      Drops owner clear rest loop (loop.run world rest.flatten)) :
    Drops owner clear plan loop ((loop.step world executable).run world rest.flatten) := by
  have hstep := calm_step (calmAt_failingAt hworld (by omega)) (hruns _)
  have hrecords := (normal_ordinary world h.normal step (loop.iteration + 1)).1
  rw [← step_of_dispatch _ (hruns _)] at hrecords
  have hdrops := ih _ (hstep.poised h) (fun id hid => ?_)
    (show target = loop.iteration + 1 + rest.dropPosition mayFail clear by omega)
  · exact ⟨fun hsome => ⟨(hdrops.breaking hsome).1,
      (hdrops.breaking hsome).2.trans hstep.frames⟩, hdrops.dropped.imp_left (hdropped _)⟩
  · rw [hrecords.advances.same id fun hmem => (hnew id hid).1 (mem_singleton.mp hmem)]
    exact (hnew id hid).2

section

variable (howner : loop.owner = owner) (hfresh : (composite umbrella body rest).Fresh owner)
  (hnew : ∀ id ∈ rest.ownIds owner, loop.state.outcomes.get? id = none)
include howner hfresh hnew

/-- What follows a composite that handed its break on with the frames as they
    were: the first step to run is dropped here, if there is one. -/
theorem drops_after {clear : Bool} {after : Loop}
    (hadv : Advances (umbrella.stepId :: body.ids) loop after) (hbreaking : after.Breaking)
    (hframes : after.frames = loop.frames) (htarget : target < after.iteration)
    (hdropped : (clear && rest.onlyOutputs) = true →
      Dropped owner (.composite umbrella body rest) (after.run world rest.flatten).state.outcomes) :
    Drops owner (some clear) (.composite umbrella body rest) loop
      (after.run world rest.flatten) := by
  have hafter := (owner_congr hframes).trans howner
  have hrest := hfresh.rest_of_composite
  have hsmooth := smooth_breaking hworld rest hbreaking hafter hrest htarget
  refine ⟨fun _ => ⟨(run_breaking _ rest hbreaking hafter hrest).2.1,
    hsmooth.frames.trans hframes⟩, ?_⟩
  by_cases honly : rest.onlyOutputs = true
  · cases clear with
    | true => exact .inl (hdropped honly)
    | false => exact .inr rfl
  · obtain ⟨id, hid, hlocated, hsame⟩ := run_breaking_drops world rest
      hbreaking hafter hrest (eq_false_iff.mpr honly)
    refine .inl (Dropped.of_rest ⟨[], id, hlocated, hid, ?_, nofun⟩)
    rw [hsame, hadv.same id (hfresh.rest_notMem_block hid), hnew id hid]

/-- A composite whose body is where a step is dropped. -/
theorem drops_body (h : loop.Normal) (hclear : clear.isSome = owner.isSome)
    (htarget : target ≤ last.iteration) (hrun : Advances body.ids (loop.inside umbrella) last)
    (hbody : Drops (some umbrella.stepId) (some (lastOf clear rest)) body (loop.inside umbrella)
      last) :
    Drops owner clear (.composite umbrella body rest) loop
      ((last.step world (.compositeEnd umbrella.stepId)).run world rest.flatten) := by
  obtain ⟨hbreaking, hframes⟩ := hbody.breaking (Option.some_ne_none _)
  obtain ⟨after, hafter⟩ : ∃ after,
    after = last.step world (.compositeEnd umbrella.stepId) := ⟨_, rfl⟩
  have hleft : Left world umbrella.stepId
      ⟨umbrella.stepId, 0, false, umbrella.continueOnError, false, loop.results.length⟩
      loop.frames last after := hafter ▸ left_step world hframes rfl
  have hadv := advances_inside hleft hrun
  have hcancel : world.cancelAt = none := hworld ▸ rfl
  have hsame := hleft.frames_ignored hcancel (.inl rfl)
  have hsuccess := hleft.success hcancel rfl rfl
  -- a step dropped in the body stays dropped when the umbrella is recorded and after
  have hkeep : ∀ final : Loop, Advances rest.ids after final →
      Dropped (some umbrella.stepId) body last.state.outcomes →
      Dropped owner (.composite umbrella body rest) final.state.outcomes := by
    intro _ hfinal hdropped
    refine hdropped.of_body ?_ fun id hid => ?_
    · rw [hfinal.same _ (hfresh.notMem_rest _ mem_cons_self), hsuccess]
    · rw [hfinal.same id (hfresh.notMem_rest id (mem_cons_of_mem _ hid)), hleft.outcomes]
      refine OrderedMap.get?_insert_of_ne _ _ fun heq => ?_
      exact (nodup_cons.mp hfresh.body_of_composite).1 (heq ▸ hid)
  have hrest := hfresh.rest_of_composite
  have hafterOwner := (owner_congr hsame).trans howner
  rw [← hafter]
  cases clear with
  | none =>
    have hjob : loop.frames = [] := by
      simpa [← howner] using hclear.symm
    have hnormal := normal_close hbreaking hframes hjob hleft
    have hfinal := advances_run hworld rest hnormal hafterOwner hrest
    refine ⟨fun hsome => absurd rfl hsome, .inl (hkeep _ hfinal ?_)⟩
    exact hbody.dropped.resolve_right nofun
  | some =>
    have hopen := frames_ne_nil howner hclear
    obtain ⟨_, _, _, _, hstill⟩ := breaking_close hopen h hrun hbreaking
    rw [← hafter] at hstill
    refine drops_after hworld howner hfresh hnew hadv hstill hsame ?_ fun hlast => ?_
    · rw [hafter]
      exact lt_succ_of_le htarget
    · refine hkeep _ (run_breaking _ rest hstill hafterOwner hrest).1 ?_
      refine hbody.dropped.resolve_right fun hfalse => ?_
      exact Bool.noConfusion (hlast.symm.trans (Option.some.inj hfalse))

/-- A composite that ignores its failures and breaks. -/
theorem drops_ignored {clear : Bool} (h : loop.Normal) (hopen : loop.frames ≠ [])
    (htarget : target ≤ last.iteration) (hrun : Advances body.ids (loop.inside umbrella) last)
    (hbreaking : last.Breaking) (hcoe : umbrella.continueOnError = true)
    (hlast : lastOf (some clear) rest = false) :
    Drops owner (some clear) (.composite umbrella body rest) loop
      ((last.step world (.compositeEnd umbrella.stepId)).run world rest.flatten) := by
  obtain ⟨final, _, hframe, hleft, hstill⟩ := breaking_close hopen h hrun hbreaking
  have hignores : final.continueOnError = true ∧ final.conditionFailed = false := by
    obtain ⟨_, rfl, _⟩ := hframe
    exact ⟨hcoe, rfl⟩
  refine drops_after hworld howner hfresh hnew (advances_inside hleft hrun) hstill
    (hleft.frames_ignored (hworld ▸ rfl) (.inr hignores)) (lt_succ_of_le htarget) fun htrue => ?_
  exact Bool.noConfusion (hlast.symm.trans htrue)

end

theorem drop_run (plan : Plan) (h : loop.Poised owner)
    (hclear : clear.isSome = owner.isSome) (hfresh : plan.Fresh owner)
    (hnew : ∀ id ∈ plan.ownIds owner, loop.state.outcomes.get? id = none)
    (hguard : plan.guardedIn mayFail clear = false)
    (htarget : target = loop.iteration + plan.dropPosition mayFail clear) :
    Drops owner clear plan loop (loop.run world plan.flatten) := by
  induction plan generalizing loop clear owner with
  | done => cases hguard
  | action step _ ih =>
    refine drops_ordinary hworld step.ordinary h (fun _ => if_neg (h.normal.not_passesOver _))
      (fun id hid => ⟨?_, hnew id (mem_cons_of_mem _ hid)⟩) htarget
      (fun _ h => h.mono (subset_cons_self _ _) (subset_cons_self _ _) (.refl _))
      fun _ h hnew => ih h hclear hfresh.of_action hnew hguard
    rintro rfl
    exact (nodup_cons.mp (nodup_append.mp hfresh).2.1).1 hid
  | outputs step _ ih =>
    exact drops_ordinary hworld step.ordinary h (fun _ => if_neg (h.normal.not_passesOver _))
      (fun id hid => ⟨hfresh.ne_outputs hid, hnew id ((ownIds_outputs ..).subset hid)⟩) htarget
      (fun _ h => h.mono (subset_cons_self _ _) (ownIds_outputs ..).subset (.refl _))
      fun _ h hnew => ih h hclear hfresh.of_outputs hnew hguard
  | composite umbrella body rest ihBody ihRest =>
    have hinside := h.inside umbrella
    have hiteration : ((loop.inside umbrella).run world body.flatten).iteration =
        loop.iteration + 1 + body.flatten.length := iteration_run world _ body.flatten
    have hrun := advances_run hworld body hinside.normal rfl hfresh.body_of_composite
    have hnewRest : ∀ id ∈ rest.ownIds owner, loop.state.outcomes.get? id = none := fun id hid =>
      hnew id (mem_cons_of_mem _ (mem_append_right _ hid))
    rw [dropPosition] at htarget
    have hstart : loop.iteration ≠ target := by
      split at htarget
      · omega
      · split at htarget <;> omega
    rw [Plan.flatten, run_cons, run_append, step_start hworld h hstart]
    split at htarget
    case isTrue hhere =>
      rw [and_eq_true, and_eq_true, and_eq_true] at hhere
      obtain ⟨⟨⟨hsome, hcoe⟩, hmay⟩, hlast⟩ := hhere
      obtain ⟨_, rfl⟩ := Option.isSome_iff_exists.mp hsome
      have hbreaking := break_run hworld body hinside hfresh.body_of_composite (cons_ne_nil _ _)
        hmay
        (show target = loop.iteration + 1 + body.firstFallible mayFail by omega)
      refine drops_ignored hworld h.owner hfresh hnewRest h.normal (frames_ne_nil h.owner hclear) ?_
        hrun hbreaking hcoe ((not_eq_true' _).mp hlast)
      have := firstFallible_lt hmay
      omega
    case isFalse hhere =>
      split at htarget
      case isTrue hbody =>
        have hclose := smooth_composite hworld h umbrella body (by omega)
        have hleft := left_step world (smooth_run hworld body hinside (.inr (by
            show loop.iteration + 1 + body.flatten.length ≤ target
            omega))).frames rfl
        have hadv := advances_inside hleft hrun
        have hdrops := ihRest (hclose.poised h) hclear hfresh.rest_of_composite (fun id hid => ?_)
          (guardedIn_composite_eq_false hguard (eq_false_iff.mpr hhere) hbody) ?_
        · exact ⟨fun hsome => ⟨(hdrops.breaking hsome).1,
            (hdrops.breaking hsome).2.trans hclose.frames⟩, hdrops.dropped.imp_left .of_rest⟩
        · exact (hadv.same id (hfresh.rest_notMem_block hid)).trans (hnewRest id hid)
        · show target = ((loop.inside umbrella).run _ body.flatten).iteration + 1 + _
          omega
      case isFalse hbody =>
        have hposition := dropPosition_lt (eq_false_iff.mpr hbody)
        refine drops_body hworld h.owner hfresh hnewRest h.normal hclear (by omega) hrun ?_
        refine ihBody hinside rfl hfresh.body_of_composite (fun id hid => ?_)
          (eq_false_iff.mpr hbody) ?_
        · exact hnew id (mem_cons_of_mem _ (mem_append_left _ hid))
        · show target = loop.iteration + 1 + _
          omega

end FailingAt

end Loop

/-! ## The exact shape -/

theorem Plan.not_noSilentDrop {mayFail : Str → Bool} {plan : Plan} (hids : plan.DistinctIds)
    (hguard : plan.guarded mayFail = false) (env : OrderedMap Str Str)
    (contextData : List (Str × Context.ContextValue)) :
    ¬ NoSilentDrop (executeSteps (failingAt mayFail (plan.dropPosition mayFail none))
      (.fresh env contextData) plan.flatten).state.outcomes plan := by
  have hstart : (Loop.start (.fresh env contextData)).Normal := ⟨rfl, rfl, rfl⟩
  have hdrops := Loop.drop_run rfl plan ⟨hstart, .fresh env contextData, rfl⟩ rfl
    hids (fun _ _ => rfl) hguard (Nat.zero_add _).symm
  have hframes : ((Loop.start (.fresh env contextData)).run
      (failingAt mayFail (plan.dropPosition mayFail none)) plan.flatten).frames = [] :=
    (Loop.advances_run rfl plan hstart rfl hids).frames
  unfold executeSteps Loop.flush
  rw [hframes]
  exact (hdrops.dropped.resolve_right nofun).not_noSilentDrop

/-- A plan's runs drop no step silently, whatever the conditions that may fail do
    and whatever the actions do, exactly when the plan has the guarded shape: a
    composite that ignores its failures, lies in another one and holds a
    condition that may fail to evaluate is followed there by nothing but outputs
    steps. -/
theorem noSilentDrop_iff_guarded (mayFail : Str → Bool) {plan : Plan}
    (hids : plan.DistinctIds) :
    (∀ world env contextData, Loop.FailsOnly world mayFail →
      NoSilentDrop (executeSteps world (.fresh env contextData) plan.flatten).state.outcomes plan) ↔
      plan.guarded mayFail = true := by
  constructor
  · intro h
    by_contra hguard
    exact plan.not_noSilentDrop hids (eq_false_iff.mpr hguard) .empty []
      (h _ _ _ failsOnly_failingAt)
  · intro hguard _ _ _ hworld
    exact (plan.accounted_of_guarded hworld hids hguard _).noSilentDrop

/-- A composite `release` with a nested `probe` that ignores its failures; the
    step in the nested one has a condition on an output. -/
def releasePlan (probeFirst : Bool) : Plan :=
  let probe (rest : Plan) : Plan :=
    .composite ⟨"release-probe", none, true⟩
      (.action ⟨.script, "release-probe-1",
        some "fromJSON(steps.meta.outputs.flags).probe", false, none⟩ .done) rest
  let publish (rest : Plan) : Plan :=
    .action ⟨.script, "release-publish", none, false, none⟩ rest
  .composite ⟨"release", none, false⟩
    (if probeFirst then probe (publish .done) else publish (probe .done)) .done

/-- Conditions that read a JSON text may fail. -/
def readsJson (text : Str) : Bool := "fromJSON(".toList.isPrefixOf text

theorem noSilentDrop_of_probe_last :
    NoSilentDrop (executeSteps (failingAt readsJson 3) (.fresh .empty [])
      (releasePlan false).flatten).state.outcomes (releasePlan false) :=
  (noSilentDrop_iff_guarded readsJson (by decide +kernel)).mpr (by decide +kernel)
    _ _ _ failsOnly_failingAt

/-- With the probe in front, the failing condition drops the step that publishes,
    and the release is recorded as a success. -/
theorem silentDrop_of_probe_first :
    ¬ NoSilentDrop (executeSteps (failingAt readsJson 2) (.fresh .empty [])
        (releasePlan true).flatten).state.outcomes (releasePlan true) ∧
      (executeSteps (failingAt readsJson 2) (.fresh .empty [])
        (releasePlan true).flatten).state.outcomes.get? "release-publish" = none ∧
      (executeSteps (failingAt readsJson 2) (.fresh .empty [])
        (releasePlan true).flatten).state.outcomes.get? "release" = some .success := by
  decide +kernel

end Velnor.Executor
