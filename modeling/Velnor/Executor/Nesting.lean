/-
  Runs of plans in which no composite has the id of one around it; ids need not
  be distinct otherwise.  Such a plan leaves the loop as balanced as it found
  it (`run_steady`), and after a break it starts no process.

  An umbrella's `continue-on-error` is read when the composite ends and not
  before: two runs that differ in it stay in lockstep up to there
  (`run_reflag`), and then in all but the umbrella's conclusion
  (`agreesBut_block`).
-/
import Velnor.Executor.BreakExact

namespace Velnor.Executor

open Collections JobExecutionState List

/-! ## Nesting -/

variable {last : Loop} (loop : Loop) {plan : Plan} {stepId : StepId} {parents : List CompositeFrame}
    {step : OrdinaryStep}

namespace Plan

/-- No composite has the id of one it lies in; `owner` is the innermost one
    around the plan. -/
def NestedIn (owner : Option StepId) : Plan → Prop
  | done => True
  | action _ rest => rest.NestedIn owner
  | outputs _ rest => rest.NestedIn owner
  | composite umbrella body rest =>
    (∀ id ∈ umbrella.stepId :: body.umbrellaIds, owner ≠ some id) ∧
      body.NestedIn (some umbrella.stepId) ∧ rest.NestedIn owner

/-- No step of the plan starts a process. -/
def idle : Plan → Bool
  | done => true
  | action _ _ => false
  | outputs _ rest => rest.idle
  | composite _ body rest => body.idle && rest.idle

theorem NestedIn.umbrellaIds_ne {owner : Option StepId} (h : plan.NestedIn owner) :
    ∀ id ∈ plan.umbrellaIds, owner ≠ some id := by
  induction plan with
  | done => nofun
  | action step rest ih | outputs step rest ih => exact ih h
  | composite umbrella body rest _ ih =>
    intro id hid
    rcases mem_append.mp (show id ∈ (umbrella.stepId :: body.umbrellaIds) ++ rest.umbrellaIds
      from hid) with hid | hid
    · exact h.1 id hid
    · exact ih h.2.2 id hid

end Plan

namespace Loop

/-! ## Started processes -/

theorem executed_absorb (result : StepExecutionResult) :
    (loop.absorb result).executed = loop.executed := by
  unfold absorb
  split <;> rfl

theorem executed_threw (cancelled : Bool) (stepId : StepId) (result : StepExecutionResult) :
    (if cancelled then (loop.absorb result).recordCancelled stepId result
      else (loop.absorb result).record stepId result).executed = loop.executed := by
  cases cancelled <;> exact loop.executed_absorb result

/-- What one stage of a step adds to the started processes. -/
def started (step : OrdinaryStep) : List StepId :=
  if step.reportsTimelineStart then [step.stepId] else []

theorem started_eq_nil (h : step.reportsTimelineStart = false) : started step = [] := by
  unfold started
  rw [h]
  rfl

theorem executed_markExecuted {before loop : Loop} (step : OrdinaryStep)
    (h : loop.executed = before.executed) :
    (loop.markExecuted step).executed = before.executed ++ started step := by
  unfold Loop.markExecuted started
  split
  · rw [← h]
  · rw [h, append_nil]

section World

variable (world : World)

section

variable (loop : Loop)

variable (step : OrdinaryStep)

theorem executed_runMain : (loop.runMain world step).executed = loop.executed ++ started step := by
  unfold runMain
  split
  · exact executed_markExecuted step (loop.executed_absorb _)
  · exact executed_markExecuted step (loop.executed_threw _ _ _)

theorem executed_runPre : (loop.runPre world step).1.executed = loop.executed ++ started step := by
  unfold runPre
  split
  · exact executed_markExecuted step (loop.executed_absorb _)
  · exact executed_markExecuted step (loop.executed_threw _ _ _)

/-- Only a step that reports its start starts processes, and none is forgotten. -/
theorem executed_runStages :
    ∃ added, (loop.runStages world step).executed = loop.executed ++ added ∧
      (step.reportsTimelineStart = false → added = []) := by
  unfold runStages
  split
  · exact ⟨_, executed_runMain world loop step, started_eq_nil⟩
  split
  · exact ⟨[], (loop.executed_absorb failed).trans (append_nil _).symm, fun _ => rfl⟩
  · exact ⟨_, executed_runMain world loop step, started_eq_nil⟩
  · dsimp only
    split
    · refine ⟨started step ++ started step, ?_, fun h => ?_⟩
      · rw [executed_runMain, executed_runPre, append_assoc]
      · rw [started_eq_nil h, append_nil]
    · exact ⟨_, executed_runPre world loop step, started_eq_nil⟩

theorem executed_runOrdinary :
    ∃ added, (loop.runOrdinary world step).executed = loop.executed ++ added ∧
      (step.reportsTimelineStart = false → added = []) := by
  unfold runOrdinary
  split
  · exact ⟨[], (loop.executed_absorb failed).trans (append_nil _).symm, fun _ => rfl⟩
  · exact ⟨[], (append_nil _).symm, fun _ => rfl⟩
  · exact executed_runStages world loop step

theorem executed_openComposite (umbrella : Umbrella) :
    (loop.openComposite world umbrella).executed = loop.executed := by
  unfold openComposite
  split
  · rfl
  · dsimp only
    split <;> rfl

theorem executed_closeComposite (stepId : StepId) :
    (loop.closeComposite world stepId).executed = loop.executed := by
  unfold closeComposite
  dsimp only
  split
  · rfl
  · unfold close
    dsimp only
    split <;> rfl

theorem executed_step_outputs (step : OutputsStep) :
    (loop.step world (.compositeOutputs step)).executed = loop.executed := by
  show (if loop.passesOver true then loop else loop.runOrdinary world step.ordinary).executed = _
  split
  · rfl
  · obtain ⟨_, heq, hnone⟩ := loop.executed_runOrdinary world step.ordinary
    rw [heq, hnone rfl, append_nil]

end

theorem executed_run_of_idle {plan : Plan} (h : plan.idle = true) (loop : Loop) :
    (loop.run world plan.flatten).executed = loop.executed := by
  induction plan generalizing loop with
  | done => rfl
  | action => cases h
  | outputs _ _ ih =>
    rw [Plan.flatten, run_cons, ih h, executed_step_outputs]
  | composite umbrella _ _ ihBody ihRest =>
    obtain ⟨hbody, hrest⟩ := Bool.and_eq_true_iff.mp h
    rw [Plan.flatten, run_cons, run_append, run_cons, ihRest hrest]
    refine (executed_closeComposite world _ umbrella.stepId).trans ?_
    rw [ihBody hbody]
    exact executed_openComposite world loop umbrella

/-! ## Balanced runs -/

theorem run_block (loop : Loop) (umbrella : Umbrella) (body : Plan) :
    loop.run world (block umbrella body).flatten =
      ((loop.step world (.compositeStart umbrella)).run world body.flatten).step world
        (.compositeEnd umbrella.stepId) := by
  rw [Plan.flatten, run_cons, run_append]
  rfl

theorem flatten_composite (umbrella : Umbrella) (body rest : Plan) :
    (Plan.composite umbrella body rest).flatten
      = (block umbrella body).flatten ++ rest.flatten := by
  simp [Plan.flatten]

/-- Outside skipped regions, with `owner` the innermost open composite. -/
structure Steady (owner : Option StepId) (loop : Loop) : Prop where
  mode : loop.Normal ∨ loop.Breaking
  owner : loop.owner = owner

/-- From one steady state to another with the same composites open; after a break
    no process is started. -/
structure Keeps (owner : Option StepId) (before after : Loop) : Prop where
  steady : after.Steady owner
  frames : TopAdvances before.frames after.frames
  broken : before.Breaking → after.Breaking ∧ after.executed = before.executed

variable {world}

variable {loop} {owner : Option StepId} {inside : Loop} {umbrella : Umbrella} {body : Plan}
  {frame : CompositeFrame}

theorem Keeps.refl (h : loop.Steady owner) :
    Keeps owner loop loop := ⟨h, .refl _, fun h => ⟨h, rfl⟩⟩

theorem Keeps.trans {a b c : Loop} (hab : Keeps owner a b) (hbc : Keeps owner b c) :
    Keeps owner a c := by
  refine ⟨hbc.steady, hab.frames.trans hbc.frames, fun h => ?_⟩
  obtain ⟨hb, hexecuted⟩ := hab.broken h
  obtain ⟨hc, hexecuted'⟩ := hbc.broken hb
  exact ⟨hc, hexecuted'.trans hexecuted⟩

theorem Normal.not_breaking (h : loop.Normal) : ¬ loop.Breaking := by
  intro hbreaking
  have hbroken := hbreaking.broken
  rw [h.unbroken] at hbroken
  cases hbroken

/-- An ordinary step in normal mode. -/
theorem keeps_ordinary (h : loop.Normal) (howner : loop.owner = owner) {executable : ExecutableStep}
    (hdispatch : loop.dispatch world executable = loop.runOrdinary world step) :
    Keeps owner loop (loop.step world executable) := by
  obtain ⟨hrecords, hmode⟩ := normal_ordinary world h step (loop.iteration + 1)
  rw [step_of_dispatch executable hdispatch]
  refine ⟨⟨hmode.imp_right And.left, hrecords.advances.frames.head_stepId.trans howner⟩,
    hrecords.advances.frames, fun hbreaking => absurd hbreaking h.not_breaking⟩

theorem keeps_later (h : loop.Steady owner) (iterations : Nat) :
    Keeps owner loop (loop.later iterations) :=
  ⟨⟨h.mode.imp (fun h => { h with }) (·.later iterations), h.owner⟩,
    .refl _, fun h => ⟨h.later iterations, rfl⟩⟩

/-- A composite that starts after a break. -/
theorem run_block_breaking (h : loop.Breaking) (howner : loop.owner = owner)
    (hids : ∀ id ∈ umbrella.stepId :: body.umbrellaIds, owner ≠ some id) :
    loop.run world (block umbrella body).flatten = loop.later (body.flatten.length + 2) :=
  run_composite_breaking world .done h (howner ▸ hids)

theorem Entered.ids_ne (hentered : Entered umbrella loop inside frame)
    (hbody : body.NestedIn (some umbrella.stepId)) :
    ∀ id ∈ body.umbrellaIds, inside.owner ≠ some id := by
  intro id hid
  rw [hentered.owner]
  exact hbody.umbrellaIds_ne id hid

/-- The body of a composite whose steps are skipped. -/
theorem run_skipped (hbody : body.NestedIn (some umbrella.stepId))
    (hentered : Entered umbrella loop inside frame)
    (hskip : inside.skipDepth = some loop.compositeDepth) :
    inside.run world body.flatten = inside.later body.flatten.length :=
  run_passing world body inside (hentered.passing hskip) (hentered.ids_ne hbody)

/-- The end of a composite, given what the loop is before it. -/
theorem keeps_close {final : CompositeFrame} (h : loop.Normal) (howner : loop.owner = owner)
    (hframes : last.frames = final :: loop.frames) (hid : final.stepId = umbrella.stepId)
    (hdepth : last.compositeDepth = loop.compositeDepth + 1)
    (hbroken : last.breakDepth = none ∨ last.breakDepth = some 0) :
    Keeps owner loop (last.step world (.compositeEnd umbrella.stepId)) := by
  have hleft := left_step world hframes hid
  have hadv : TopAdvances loop.frames (last.step world (.compositeEnd umbrella.stepId)).frames := by
    rw [hleft.frames]
    cases loop.frames with
    | nil => rfl
    | cons parent => exact ⟨_, rfl, parent.advances_standing _ _⟩
  have hcount : (last.step world (.compositeEnd umbrella.stepId)).compositeDepth =
      (last.step world (.compositeEnd umbrella.stepId)).frames.length := by
    rw [hleft.depth, hdepth, Nat.add_sub_cancel, hadv.length_eq, h.depth]
  have hlevel : last.compositeDepth - 1 = loop.frames.length := by
    rw [hdepth, Nat.add_sub_cancel, h.depth]
  refine ⟨⟨?_, hadv.head_stepId.trans howner⟩, hadv,
    fun hbreaking => absurd hbreaking h.not_breaking⟩
  have hafter := hleft.broken
  rcases hbroken with hnone | hzero
  · rw [hnone] at hafter
    exact .inl ⟨hleft.skip, hafter, hcount⟩
  rw [hzero, hlevel] at hafter
  cases hparents : loop.frames with
  | nil =>
    rw [hparents] at hafter
    exact .inl ⟨hleft.skip, hafter, hcount⟩
  | cons =>
    rw [hparents] at hafter hadv
    refine .inr ⟨hleft.skip, hafter, hcount, fun hnil => ?_⟩
    have hlength := hadv.length_eq
    rw [hnil] at hlength
    cases hlength

/-- What a body in a steady state leaves of the frame its composite opened. -/
theorem Keeps.entered (h : loop.Normal) (hentered : Entered umbrella loop inside frame)
    (hbody : Keeps (some umbrella.stepId) inside last) :
    ∃ final, last.frames = final :: loop.frames ∧ frame.Advances final ∧
      final.stepId = umbrella.stepId ∧ last.compositeDepth = loop.compositeDepth + 1 ∧
      (last.breakDepth = none ∨ last.breakDepth = some 0) := by
  have hframes := hbody.frames
  rw [hentered.frames] at hframes
  obtain ⟨final, hfinal, hadvances⟩ := hframes
  refine ⟨final, hfinal, hadvances, hadvances.stepId_eq.trans hentered.stepId, ?_,
    hbody.steady.mode.imp Normal.unbroken Breaking.broken⟩
  have hlast : last.compositeDepth = last.frames.length :=
    hbody.steady.mode.elim Normal.depth Breaking.depth
  rw [hlast, hfinal, length_cons, h.depth]

theorem run_steady (plan : Plan) (hnested : plan.NestedIn owner) (h : loop.Steady owner) :
    Keeps owner loop (loop.run world plan.flatten) := by
  induction plan generalizing owner loop with
  | done => exact .refl h
  | action step _ ih =>
    have hstep : Keeps owner loop (loop.step world (.action step)) := by
      rcases h.mode with hnormal | hbreaking
      · exact keeps_ordinary hnormal h.owner (if_neg (hnormal.not_passesOver _))
      rw [step_breaking_action world hbreaking]
      exact keeps_later h 1
    exact hstep.trans (ih hnested hstep.steady)
  | outputs step _ ih =>
    have hstep : Keeps owner loop (loop.step world (.compositeOutputs step)) := by
      rcases h.mode with hnormal | hbreaking
      · exact keeps_ordinary hnormal h.owner (if_neg (hnormal.not_passesOver _))
      obtain ⟨hrecords, hnext⟩ := breaking_outputs world hbreaking step
      exact ⟨⟨.inr hnext, hrecords.advances.frames.head_stepId.trans h.owner⟩,
        hrecords.advances.frames, fun _ => ⟨hnext, loop.executed_step_outputs world step⟩⟩
    exact hstep.trans (ih hnested hstep.steady)
  | composite umbrella body _ ihBody ihRest =>
    obtain ⟨hids, hbody, hrest⟩ := hnested
    have hblock : Keeps owner loop (loop.run world (block umbrella body).flatten) := by
      rcases h.mode with hnormal | hbreaking
      · obtain ⟨_, hentered, hhow⟩ := entered_step world hnormal umbrella
        rw [run_block]
        rcases hhow with ⟨hskip, -⟩ | ⟨hskip, -⟩
        · have hinside := normal_entered hnormal hentered hskip
          have hkeeps := ihBody hbody ⟨.inl hinside, hentered.owner⟩
          obtain ⟨_, hfinal, -, hid, hdepth, hbroken⟩ := hkeeps.entered hnormal hentered
          exact keeps_close hnormal h.owner hfinal hid hdepth hbroken
        · rw [run_skipped hbody hentered hskip]
          exact keeps_close hnormal h.owner hentered.frames hentered.stepId hentered.depth
            (.inl (hentered.unbroken.trans hnormal.unbroken))
      · rw [run_block_breaking hbreaking h.owner hids]
        exact keeps_later h _
    rw [flatten_composite, run_append]
    exact hblock.trans (ihRest hrest hblock.steady)

/-! ## Guards -/

theorem verdict_of_entered (h : loop.Normal)
    (hentered : (loop.step world (.compositeStart umbrella)).skipDepth = none) :
    world.evaluateCondition loop.iteration (loop.state.withStepAction umbrella.stepId)
      umbrella.condition = .ok true := by
  unfold step dispatch openComposite at hentered
  simp only [h.counts, Bool.false_eq_true, if_false] at hentered
  split at hentered
  next hverdict => exact hverdict
  next => cases hentered
  next => cases hentered

/-- What starts a process inside a composite has its condition evaluated to true
    in the scope around it. -/
theorem verdict_of_executed (h : loop.Steady owner) (hnested : (block umbrella body).NestedIn owner)
    (hran : (loop.run world (block umbrella body).flatten).executed ≠ loop.executed) :
    world.evaluateCondition loop.iteration (loop.state.withStepAction umbrella.stepId)
      umbrella.condition = .ok true := by
  rcases h.mode with hnormal | hbreaking
  · obtain ⟨_, hentered, ⟨hskip, -⟩ | ⟨hskip, -⟩⟩ := entered_step world hnormal umbrella
    · exact verdict_of_entered hnormal hskip
    refine absurd ?_ hran
    rw [run_block, run_skipped hnested.2.1 hentered hskip]
    refine (executed_closeComposite world _ umbrella.stepId).trans ?_
    exact loop.executed_openComposite world umbrella
  · exact absurd ((run_steady (block umbrella body) hnested h).broken hbreaking).2 hran

/-! ## The flag of an open composite -/

/-- Set the flag of the frame that has `height` frames below it. -/
def reflagFrames (height : Nat) (flag : Bool) : List CompositeFrame → List CompositeFrame
  | [] => []
  | frame :: parents =>
    (if parents.length = height then { frame with continueOnError := flag } else frame)
      :: reflagFrames height flag parents

def reflag (height : Nat) (flag : Bool) (loop : Loop) : Loop :=
  { loop with frames := reflagFrames height flag loop.frames }

section Reflag

variable {height : Nat} {flag : Bool}

@[simp] theorem iteration_reflag (loop : Loop) :
    (loop.reflag height flag).iteration = loop.iteration := rfl

@[simp] theorem state_reflag (loop : Loop) : (loop.reflag height flag).state = loop.state := rfl

theorem reflagFrames_of_length_le {frames : List CompositeFrame} (h : frames.length ≤ height) :
    reflagFrames height flag frames = frames := by
  induction frames with
  | nil => rfl
  | cons _ _ ih =>
    rw [length_cons] at h
    rw [reflagFrames, if_neg (by omega), ih (by omega)]

theorem length_reflagFrames (frames : List CompositeFrame) :
    (reflagFrames height flag frames).length = frames.length := by
  induction frames with
  | nil => rfl
  | cons _ _ ih => rw [reflagFrames, length_cons, length_cons, ih]

theorem isEmpty_reflagFrames (height : Nat) (flag : Bool) (frames : List CompositeFrame) :
    (reflagFrames height flag frames).isEmpty = frames.isEmpty := by
  cases frames <;> rfl

theorem standing_reflag (frame : CompositeFrame) (condition : Prop) [Decidable condition]
    (exitCode : Int) (ignored : Bool) :
    (if condition then { frame with continueOnError := flag } else frame).standing exitCode
        ignored =
      if condition then { frame.standing exitCode ignored with continueOnError := flag }
      else frame.standing exitCode ignored := by
  split
  · unfold CompositeFrame.standing
    split <;> rfl
  · rfl

/-- What a step of the loop does is the same under either flag. -/
def Blind (height : Nat) (flag : Bool) (f : Loop → Loop) : Prop :=
  ∀ loop : Loop, f (loop.reflag height flag) = (f loop).reflag height flag

theorem reflag_absorb (loop : Loop) (result : StepExecutionResult) :
    (loop.reflag height flag).absorb result = (loop.absorb result).reflag height flag := by
  unfold absorb reflag
  cases hframes : loop.frames with
  | nil => simp [reflagFrames, hframes]
  | cons frame =>
    exact congrArg (fun top => ({ loop with frames := top :: _ } : Loop))
      (standing_reflag frame _ result.exitCode result.failureIgnored)

section

variable (step : OrdinaryStep) (result : StepExecutionResult)

theorem reflag_markExecuted (loop : Loop) :
    (loop.reflag height flag).markExecuted step = (loop.markExecuted step).reflag height flag := by
  unfold Loop.markExecuted
  split <;> rfl

theorem blind_stage :
    Blind height flag fun loop =>
      ((loop.absorb result).record step.stepId result).markExecuted step := by
  intro loop
  dsimp only
  rw [reflag_absorb]
  exact reflag_markExecuted step ((loop.absorb result).record step.stepId result)

theorem blind_threw (cancelled : Bool) :
    Blind height flag fun loop =>
      (if cancelled then (loop.absorb result).recordCancelled step.stepId result
        else (loop.absorb result).record step.stepId result).markExecuted step := by
  intro _
  dsimp only
  rw [reflag_absorb, ← reflag_markExecuted]
  cases cancelled <;> rfl

theorem blind_runMain : Blind height flag (·.runMain world step) := by
  intro loop
  unfold runMain
  simp only [iteration_reflag, state_reflag]
  cases world.execute loop.iteration .main (loop.state.withStepAction step.stepId) step with
  | ok => exact blind_stage step _ loop
  | error => exact blind_threw step _ _ loop

theorem reflag_runPre (loop : Loop) :
    (loop.reflag height flag).runPre world step =
      ((loop.runPre world step).1.reflag height flag, (loop.runPre world step).2) := by
  unfold runPre
  simp only [iteration_reflag, state_reflag]
  cases world.execute loop.iteration .pre (loop.state.withStepAction step.stepId) step with
  | ok => exact Prod.ext (blind_stage step _ loop) rfl
  | error => exact Prod.ext (blind_threw step _ _ loop) rfl

theorem blind_runStages : Blind height flag (·.runStages world step) := by
  intro loop
  unfold runStages
  simp only [iteration_reflag, state_reflag, reflag_runPre, blind_runMain step _]
  cases step.pre with
  | none => rfl
  | some condition =>
    dsimp only
    cases world.evaluatePreCondition loop.iteration (loop.state.withStepAction step.stepId)
      condition with
    | error =>
      rw [reflag_absorb]
      rfl
    | ok verdict =>
      cases verdict with
      | false => rfl
      | true =>
        dsimp only
        split <;> rfl

theorem blind_runOrdinary : Blind height flag (·.runOrdinary world step) := by
  intro loop
  unfold runOrdinary
  simp only [iteration_reflag, state_reflag, blind_runStages step _]
  cases world.evaluateCondition loop.iteration (loop.state.withStepAction step.stepId)
    step.condition with
  | error =>
    unfold failCondition
    rw [reflag_absorb]
    simp only [reflag, isEmpty_reflagFrames]
    rfl
  | ok verdict => cases verdict <;> rfl

end

theorem reflag_step {step : ExecutableStep}
    (h : (loop.reflag height flag).dispatch world step =
      (loop.dispatch world step).reflag height flag) :
    (loop.reflag height flag).step world step = (loop.step world step).reflag height flag := by
  unfold Loop.step
  rw [h]
  rfl

/-- Steps between the ends of composites do not read the flag. -/
theorem reflag_ordinary (executable : ExecutableStep) {isOutputs : Bool}
    (hdispatch : ∀ loop : Loop, loop.dispatch world executable =
      if loop.passesOver isOutputs then loop else loop.runOrdinary world step) :
    (loop.reflag height flag).step world executable =
      (loop.step world executable).reflag height flag := by
  have hpasses : (loop.reflag height flag).passesOver isOutputs = loop.passesOver isOutputs := by
    unfold passesOver reflag
    simp only [length_reflagFrames]
  refine reflag_step ?_
  simp only [hdispatch, hpasses, blind_runOrdinary step _]
  split <;> rfl

theorem reflag_openComposite (h : height < loop.frames.length) (umbrella : Umbrella) :
    (loop.reflag height flag).openComposite world umbrella =
      (loop.openComposite world umbrella).reflag height flag := by
  have hpush : ∀ frame : CompositeFrame, frame :: reflagFrames height flag loop.frames =
      reflagFrames height flag (frame :: loop.frames) := by
    intro _
    rw [reflagFrames, if_neg (by omega)]
  unfold openComposite reflag
  dsimp only
  split
  · rfl
  · split <;> simp only [pushFrame, hpush]

theorem reflag_start (h : height < loop.frames.length) (umbrella : Umbrella) :
    (loop.reflag height flag).step world (.compositeStart umbrella) =
      (loop.step world (.compositeStart umbrella)).reflag height flag :=
  reflag_step (reflag_openComposite h umbrella)

theorem reflag_popFrame (loop : Loop) (cancelled : Bool) (stepId : StepId) (inner : List StepId)
    (frame : CompositeFrame) (parents : List CompositeFrame) :
    (loop.reflag height flag).popFrame cancelled stepId inner frame
        (reflagFrames height flag parents) =
      (loop.popFrame cancelled stepId inner frame parents).reflag height flag := by
  cases parents with
  | nil => rfl
  | cons parent rest =>
    have hmerge : (if rest.length = height then { parent with continueOnError := flag }
        else parent).mergeNested frame (frame.umbrellaResult cancelled) ::
          reflagFrames height flag rest =
        reflagFrames height flag
          (parent.mergeNested frame (frame.umbrellaResult cancelled) :: rest) :=
      congrArg (· :: reflagFrames height flag rest) (standing_reflag parent _ _ _)
    unfold popFrame reflag
    rw [← hmerge]
    rfl

/-- The end of a composite above the flagged one. -/
theorem reflag_close {frame : CompositeFrame} (hframes : loop.frames = frame :: parents)
    (hid : frame.stepId = stepId) (h : height < parents.length) :
    (loop.reflag height flag).step world (.compositeEnd stepId) =
      (loop.step world (.compositeEnd stepId)).reflag height flag := by
  have hreflag : (loop.reflag height flag).frames = frame :: reflagFrames height flag parents := by
    show reflagFrames height flag loop.frames = _
    rw [hframes, reflagFrames, if_neg (by omega)]
  refine reflag_step ?_
  unfold dispatch
  dsimp only
  rw [closeComposite_active world hframes hid, closeComposite_active world hreflag hid]
  rw [hframes, hreflag]
  -- what the pop reads of the loop has no frames in it
  refine Eq.trans ?_ (reflag_popFrame _ _ stepId _ frame parents)
  rfl

theorem head_stepId_reflag (loop : Loop) : (loop.reflag height flag).owner = loop.owner := by
  show (reflagFrames height flag loop.frames).head?.map _ = loop.frames.head?.map _
  cases loop.frames with
  | nil => rfl
  | cons frame =>
    show some (if _ then _ else _ : CompositeFrame).stepId = some frame.stepId
    split <;> rfl

theorem run_passing_reflag (h : loop.Passing)
    (hids : ∀ id ∈ plan.umbrellaIds, loop.owner ≠ some id) :
    (loop.reflag height flag).run world plan.flatten =
      (loop.run world plan.flatten).reflag height flag := by
  have hreflag : (loop.reflag height flag).Passing := by
    refine h.imp_right fun ⟨hskip, resume, hbroken, hlt, hlength⟩ =>
      ⟨hskip, resume, hbroken, hlt, ?_⟩
    exact (length_reflagFrames loop.frames).symm ▸ hlength
  rw [run_passing world plan loop h hids,
    run_passing world plan _ hreflag (by rwa [head_stepId_reflag])]
  rfl

theorem run_block_breaking_reflag (h : loop.Breaking)
    (howner : loop.owner = owner) {umbrella : Umbrella}
    {body : Plan} (hids : ∀ id ∈ umbrella.stepId :: body.umbrellaIds, owner ≠ some id) :
    (loop.reflag height flag).run world (block umbrella body).flatten =
      (loop.run world (block umbrella body).flatten).reflag height flag := by
  have hlength : (loop.reflag height flag).frames.length = loop.frames.length :=
    length_reflagFrames loop.frames
  have hreflag : (loop.reflag height flag).Breaking :=
    ⟨h.skip, h.broken, h.depth.trans hlength.symm, fun hnil =>
      h.inside (length_eq_zero_iff.mp (hlength.symm.trans (congrArg length hnil)))⟩
  rw [run_block_breaking h howner hids,
    run_block_breaking hreflag ((head_stepId_reflag loop).trans howner) hids]
  rfl

/-- A body the loop enters is run alike, whether its steps are skipped or not, and
    leaves the frame of its composite. -/
theorem run_entered_reflag (h : loop.Normal) {umbrella : Umbrella} {body : Plan}
    (hbody : body.NestedIn (some umbrella.stepId)) (hheight : height ≤ loop.frames.length)
    (hrun : ∀ {inside : Loop}, inside.Steady (some umbrella.stepId) →
      height < inside.frames.length →
      (inside.reflag height flag).run world body.flatten =
        (inside.run world body.flatten).reflag height flag) :
    ((loop.step world (.compositeStart umbrella)).reflag height flag).run world body.flatten =
        ((loop.step world (.compositeStart umbrella)).run world body.flatten).reflag height flag ∧
      ∃ final, ((loop.step world (.compositeStart umbrella)).run world body.flatten).frames =
        final :: loop.frames ∧ final.stepId = umbrella.stepId := by
  obtain ⟨frame, hentered, ⟨hskip, -⟩ | ⟨hskip, -⟩⟩ := entered_step world h umbrella
  · have hinside := normal_entered h hentered hskip
    have hkeeps : Keeps _ _ ((loop.step world (.compositeStart umbrella)).run world
        body.flatten) := run_steady body hbody ⟨.inl hinside, hentered.owner⟩
    obtain ⟨final, hfinal, -, hid, -, -⟩ := hkeeps.entered h hentered
    refine ⟨hrun ⟨.inl hinside, hentered.owner⟩ ?_, final, hfinal, hid⟩
    rw [hentered.frames]
    exact Nat.lt_succ_of_le hheight
  · refine ⟨run_passing_reflag (hentered.passing hskip) (hentered.ids_ne hbody), frame, ?_,
      hentered.stepId⟩
    rw [run_skipped hbody hentered hskip]
    exact hentered.frames

/-- Two runs over the body of a composite that differ in its flag. -/
theorem run_reflag (plan : Plan) (hnested : plan.NestedIn owner) (h : loop.Steady owner)
    (hheight : height < loop.frames.length) :
    (loop.reflag height flag).run world plan.flatten =
      (loop.run world plan.flatten).reflag height flag := by
  induction plan generalizing owner loop with
  | done => rfl
  | action step _ ih =>
    have hstep : Keeps owner loop (loop.step world (.action step)) :=
      run_steady (.action step .done) trivial h
    rw [Plan.flatten, run_cons, reflag_ordinary (.action step) fun _ => rfl]
    exact ih hnested hstep.steady (hstep.frames.length_eq.symm ▸ hheight)
  | outputs step _ ih =>
    have hstep : Keeps owner loop (loop.step world (.compositeOutputs step)) :=
      run_steady (.outputs step .done) trivial h
    rw [Plan.flatten, run_cons, reflag_ordinary (.compositeOutputs step) fun _ => rfl]
    exact ih hnested hstep.steady (hstep.frames.length_eq.symm ▸ hheight)
  | composite umbrella body _ ihBody ihRest =>
    obtain ⟨hids, hbody, hrest⟩ := hnested
    have hblock : Keeps owner loop (loop.run world (block umbrella body).flatten) :=
      run_steady (block umbrella body) ⟨hids, hbody, trivial⟩ h
    have hcommutes : (loop.reflag height flag).run world (block umbrella body).flatten =
        (loop.run world (block umbrella body).flatten).reflag height flag := by
      rcases h.mode with hnormal | hbreaking
      · obtain ⟨hinner, _, hframes, hid⟩ :=
          run_entered_reflag hnormal hbody (Nat.le_of_lt hheight) (ihBody hbody)
        rw [run_block, run_block, reflag_start hheight, hinner, reflag_close hframes hid hheight]
      · exact run_block_breaking_reflag hbreaking h.owner hids
    rw [flatten_composite, run_append, run_append, hcommutes]
    exact ihRest hrest hblock.steady (hblock.frames.length_eq.symm ▸ hheight)

/-! ## What the flag changes -/

/-- Two states of the loop that differ in what the job has of one step's
    conclusion at most. -/
structure AgreesBut (stepId : StepId) (first second : Loop) : Prop where
  executed : first.executed = second.executed
  env : first.state.env = second.state.env
  dynamicEnv : first.state.dynamicEnv = second.state.dynamicEnv
  contextData : first.state.contextData = second.state.contextData
  outputs : first.state.outputs = second.state.outputs
  actionStates : first.state.actionStates = second.state.actionStates
  outcomes : first.state.outcomes = second.state.outcomes
  path : first.state.path = second.state.path
  masks : first.state.masks = second.state.masks
  conclusions : ∀ id, id ≠ stepId →
    first.state.conclusions.get? id = second.state.conclusions.get? id

theorem AgreesBut.refl (stepId : StepId) (loop : Loop) : AgreesBut stepId loop loop :=
  ⟨rfl, rfl, rfl, rfl, rfl, rfl, rfl, rfl, rfl, fun _ _ => rfl⟩

/-- The same umbrella with its failure ignored or not. -/
theorem agreesBut_popFrame (loop : Loop) (cancelled : Bool) (stepId : StepId)
    (inner : List StepId) (frame : CompositeFrame) (parents : List CompositeFrame) (flag : Bool) :
    AgreesBut stepId (loop.popFrame cancelled stepId inner frame parents)
      (loop.popFrame cancelled stepId inner { frame with continueOnError := flag } parents) := by
  have hstate : ∀ (ignored : Bool) (state : JobExecutionState),
      ∃ scopes, (if ignored then state.convertConclusions inner else state) =
        { state with compositeScopes := scopes } := by
    intro ignored state
    cases ignored with
    | true => exact ⟨_, rfl⟩
    | false => exact ⟨state.compositeScopes, rfl⟩
  unfold popFrame
  dsimp only
  obtain ⟨_, hfirst⟩ := hstate (frame.umbrellaResult cancelled).failureIgnored
    (loop.state.apply stepId (frame.umbrellaResult cancelled))
  obtain ⟨_, hsecond⟩ := hstate
    (CompositeFrame.umbrellaResult { frame with continueOnError := flag } cancelled).failureIgnored
    (loop.state.apply stepId
      (CompositeFrame.umbrellaResult { frame with continueOnError := flag } cancelled))
  rw [hfirst, hsecond]
  refine ⟨rfl, rfl, rfl, rfl, rfl, rfl, rfl, rfl, rfl, fun id hne => ?_⟩
  show (loop.state.conclusions.insert stepId _).get? id =
    (loop.state.conclusions.insert stepId _).get? id
  rw [OrderedMap.get?_insert_of_ne _ _ hne, OrderedMap.get?_insert_of_ne _ _ hne]

theorem agreesBut_close {frame : CompositeFrame} (hframes : loop.frames = frame :: parents)
    (hid : frame.stepId = stepId) :
    AgreesBut stepId (loop.step world (.compositeEnd stepId))
      ((loop.reflag parents.length flag).step world (.compositeEnd stepId)) := by
  have hreflag : (loop.reflag parents.length flag).frames =
      { frame with continueOnError := flag } :: parents := by
    show reflagFrames _ _ loop.frames = _
    rw [hframes, reflagFrames, if_pos rfl, reflagFrames_of_length_le (Nat.le_refl _)]
  rw [step_of_dispatch (.compositeEnd stepId) (closeComposite_active world hframes hid),
    step_of_dispatch (.compositeEnd stepId) (closeComposite_active world hreflag hid)]
  rw [hframes, hreflag]
  have hagrees := agreesBut_popFrame
    { loop with
      compositeDepth := loop.compositeDepth - 1
      state := (loop.state.popComposite stepId).1
      skipDepth := none
      breakDepth := if loop.breakDepth.any fun resume => loop.compositeDepth - 1 ≤ resume then none
        else loop.breakDepth }
    (world.cancelled loop.iteration .close) stepId (loop.state.popComposite stepId).2 frame parents
    flag
  exact { hagrees with }

theorem step_start_flag (h : loop.Normal) (umbrella : Umbrella) (flag : Bool) :
    loop.step world (.compositeStart { umbrella with continueOnError := flag }) =
      (loop.step world (.compositeStart umbrella)).reflag loop.frames.length flag := by
  have hpush : ∀ frame : CompositeFrame, { frame with continueOnError := flag } :: loop.frames =
      reflagFrames loop.frames.length flag (frame :: loop.frames) := by
    intro _
    rw [reflagFrames, if_pos rfl, reflagFrames_of_length_le (Nat.le_refl _)]
  unfold Loop.step dispatch openComposite
  simp only [h.counts, Bool.false_eq_true, if_false]
  split <;> simp only [pushFrame, reflag, ← hpush]

/-- A composite's flag changes the conclusion of its own umbrella only. -/
theorem agreesBut_block (h : loop.Steady owner) {umbrella : Umbrella} {body : Plan}
    (hnested : (block umbrella body).NestedIn owner) (flag : Bool) :
    AgreesBut umbrella.stepId (loop.run world (block umbrella body).flatten)
      (loop.run world (block { umbrella with continueOnError := flag } body).flatten) := by
  obtain ⟨hids, hbody, -⟩ := hnested
  rcases h.mode with hnormal | hbreaking
  · obtain ⟨hinner, _, hframes, hid⟩ :=
      run_entered_reflag hnormal hbody (Nat.le_refl _) (run_reflag body hbody)
    rw [run_block, run_block, step_start_flag hnormal umbrella flag, hinner]
    exact agreesBut_close hframes hid
  · have hother : loop.run world (block { umbrella with continueOnError := flag } body).flatten =
        loop.later (body.flatten.length + 2) := run_block_breaking hbreaking h.owner hids
    rw [run_block_breaking hbreaking h.owner hids, hother]
    exact .refl _ _

end Reflag

end World

end Loop

end Velnor.Executor
