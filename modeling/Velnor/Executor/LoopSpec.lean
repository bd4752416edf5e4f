/-
  What one iteration of the step loop can do.  `Advances` collects it for
  ordinary steps and for whole stretches of a plan: which outcomes may have
  changed, and that only the innermost open frame can have taken a failure in.

  A region that is passed over changes nothing but the iteration count
  (`run_passing`), and the two ends of a composite have one equation for each
  way to enter and to leave it.
-/
import Velnor.Executor.Plan

namespace Velnor.Executor

open Collections JobExecutionState List CompositeFrame

/-! ## Outcomes -/

namespace JobExecutionState

variable (state : JobExecutionState) (stepId : StepId) (result : StepExecutionResult)

@[simp] theorem outcomes_apply :
    (state.apply stepId result).outcomes = state.outcomes.insert stepId (outcomeOf result) := rfl

end JobExecutionState

/-! ## Frames -/

/-- A frame that may have taken in a standing failure. -/
def CompositeFrame.Advances (before after : CompositeFrame) : Prop :=
  ∃ exitCode, after = { before with exitCode := exitCode } ∧
    (before.exitCode ≠ 0 → exitCode = before.exitCode)

variable (frame : CompositeFrame)

namespace CompositeFrame.Advances

theorem refl : frame.Advances frame := ⟨frame.exitCode, rfl, fun _ => rfl⟩

theorem trans {a b c : CompositeFrame} (hab : a.Advances b) (hbc : b.Advances c) :
    a.Advances c := by
  obtain ⟨_, rfl, hb⟩ := hab
  obtain ⟨exitC, rfl, hc⟩ := hbc
  refine ⟨exitC, rfl, fun hne => ?_⟩
  have heq := hb hne
  rw [← heq]
  exact hc (heq ▸ hne)

theorem stepId_eq {before after : CompositeFrame} (h : before.Advances after) :
    after.stepId = before.stepId := by
  obtain ⟨_, rfl, _⟩ := h
  rfl

end CompositeFrame.Advances

theorem CompositeFrame.advances_standing (exitCode : Int) (ignored : Bool) :
    frame.Advances (frame.standing exitCode ignored) := by
  unfold standing
  split
  case isTrue h => exact ⟨exitCode, rfl, fun hne => absurd h.2.2 hne⟩
  case isFalse => exact .refl frame

/-- A failure that stands leaves no frame at zero. -/
theorem CompositeFrame.standing_ne_zero {exitCode : Int} (h : exitCode ≠ 0) :
    (frame.standing exitCode false).exitCode ≠ 0 := by
  unfold standing
  split
  case isTrue => exact h
  case isFalse hnot => exact fun hzero => hnot ⟨h, rfl, hzero⟩

/-- Only the innermost frame has advanced. -/
def TopAdvances : List CompositeFrame → List CompositeFrame → Prop
  | [], after => after = []
  | frame :: parents, after => ∃ advanced, after = advanced :: parents ∧ frame.Advances advanced

namespace TopAdvances

theorem refl (frames : List CompositeFrame) : TopAdvances frames frames := by
  cases frames with
  | nil => rfl
  | cons frame => exact ⟨frame, rfl, .refl frame⟩

theorem trans {a b c : List CompositeFrame} (hab : TopAdvances a b) (hbc : TopAdvances b c) :
    TopAdvances a c := by
  cases a with
  | nil => cases hab; exact hbc
  | cons =>
    obtain ⟨_, rfl, hadv⟩ := hab
    obtain ⟨final, rfl, hfinal⟩ := hbc
    exact ⟨final, rfl, hadv.trans hfinal⟩

variable {before after : List CompositeFrame} (h : TopAdvances before after)
include h

theorem length_eq : after.length = before.length := by
  cases before with
  | nil => cases h; rfl
  | cons =>
    obtain ⟨_, rfl, _⟩ := h
    rfl

theorem head_stepId : after.head?.map stepId = before.head?.map stepId := by
  cases before with
  | nil => cases h; rfl
  | cons =>
    obtain ⟨_, rfl, hadv⟩ := h
    exact congrArg some hadv.stepId_eq

theorem ne_nil (hne : before ≠ []) : after ≠ [] := by
  rwa [ne_eq, ← length_eq_zero_iff, h.length_eq, length_eq_zero_iff]

end TopAdvances

/-- The innermost open frame stands failed. -/
def TopFailed : List CompositeFrame → Prop
  | [] => False
  | frame :: _ => frame.exitCode ≠ 0

theorem TopFailed.advance {before after : List CompositeFrame} (h : TopFailed before)
    (hadv : TopAdvances before after) : TopFailed after := by
  cases before with
  | nil => exact h.elim
  | cons =>
    obtain ⟨_, rfl, _, rfl, hkeep⟩ := hadv
    exact (hkeep h).symm ▸ h

/-! ## Stretches of a run -/

namespace Loop

/-- From one state of the loop to a later one with the same composites open:
    outcomes changed at most at `ids` and none was lost, and only the innermost
    frame may have taken in a failure. -/
structure Advances (ids : List StepId) (before after : Loop) : Prop where
  depth : after.compositeDepth = before.compositeDepth
  frames : TopAdvances before.frames after.frames
  same : ∀ id ∉ ids, after.state.outcomes.get? id = before.state.outcomes.get? id
  kept : ∀ id, before.state.outcomes.get? id ≠ none → after.state.outcomes.get? id ≠ none

namespace Advances

variable {a b c : Loop} {first second : List StepId}

theorem refl (loop : Loop) : Advances [] loop loop := ⟨rfl, .refl _, fun _ _ => rfl, fun _ h => h⟩

theorem trans (hab : Advances first a b) (hbc : Advances second b c) :
    Advances (first ++ second) a c where
  depth := hbc.depth.trans hab.depth
  frames := hab.frames.trans hbc.frames
  same id hid := by
    have hfirst : id ∉ first := fun h => hid (mem_append_left _ h)
    have hsecond : id ∉ second := fun h => hid (mem_append_right _ h)
    exact (hbc.same id hsecond).trans (hab.same id hfirst)
  kept id h := hbc.kept id (hab.kept id h)

theorem weaken (h : Advances first a b) (hsub : ∀ id ∈ first, id ∈ second) : Advances second a b :=
  { h with same := fun id hid => h.same id fun hmem => hid (hsub id hmem) }

end Advances

variable {stepId : StepId} {after loop : Loop}

variable {before : Loop} (outcome : StepOutcome) (world : World) (umbrella : Umbrella)

/-- Records under one id. -/
theorem get?_insert_kept {outcomes : OrderedMap StepId StepOutcome} {id : StepId}
    (h : outcomes.get? id ≠ none) : (outcomes.insert stepId outcome).get? id ≠ none := by
  rw [OrderedMap.get?_insert]
  split
  · exact Option.some_ne_none _
  · exact h

/-! ## Ordinary steps -/

section

variable (loop) (result : StepExecutionResult)

theorem frames_absorb : TopAdvances loop.frames (loop.absorb result).frames := by
  unfold absorb
  cases hframes : loop.frames with
  | nil => exact hframes
  | cons frame => exact ⟨_, rfl, frame.advances_standing _ _⟩

theorem state_absorb : (loop.absorb result).state = loop.state := by
  unfold absorb
  split <;> rfl

theorem compositeDepth_absorb : (loop.absorb result).compositeDepth = loop.compositeDepth := by
  unfold absorb
  split <;> rfl

theorem skipDepth_absorb : (loop.absorb result).skipDepth = loop.skipDepth := by
  unfold absorb
  split <;> rfl

theorem breakDepth_absorb : (loop.absorb result).breakDepth = loop.breakDepth := by
  unfold absorb
  split <;> rfl

end

/-- What every way through an ordinary step has in common: one outcome is
    recorded, and no skip starts or ends. -/
structure Records (stepId : StepId) (before after : Loop) : Prop where
  advances : Advances [stepId] before after
  recorded : after.state.outcomes.get? stepId ≠ none
  skipDepth : after.skipDepth = before.skipDepth

theorem records_of_outcomes
    (houtcomes : after.state.outcomes = before.state.outcomes.insert stepId outcome)
    (hdepth : after.compositeDepth = before.compositeDepth)
    (hframes : TopAdvances before.frames after.frames)
    (hskip : after.skipDepth = before.skipDepth) : Records stepId before after := by
  refine ⟨⟨hdepth, hframes, fun id hid => ?_, fun id h => ?_⟩, ?_, hskip⟩
  · rw [houtcomes]
    exact OrderedMap.get?_insert_of_ne _ _ fun heq => hid (heq ▸ mem_singleton_self _)
  · rw [houtcomes]
    exact get?_insert_kept outcome h
  · rw [houtcomes, OrderedMap.get?_insert_self]
    exact Option.some_ne_none _

theorem Records.trans {a b c : Loop} (hab : Records stepId a b) (hbc : Records stepId b c) :
    Records stepId a c :=
  ⟨(hab.advances.trans hbc.advances).weaken fun _ hid => (mem_append.mp hid).elim (·) (·),
    hbc.recorded, hbc.skipDepth.trans hab.skipDepth⟩

section

variable (loop stepId) (result : StepExecutionResult)

theorem records_record : Records stepId loop (loop.record stepId result) :=
  records_of_outcomes (outcomeOf result) rfl rfl (.refl _) rfl

/-- A result taken in by the frame and recorded. -/
theorem records_absorb_record :
    Records stepId loop ((loop.absorb result).record stepId result) := by
  refine records_of_outcomes (outcomeOf result) ?_
    (loop.compositeDepth_absorb result) (loop.frames_absorb result) (loop.skipDepth_absorb result)
  show ((loop.absorb result).state.apply stepId result).outcomes = _
  rw [state_absorb, outcomes_apply]

theorem records_absorb_recordCancelled :
    Records stepId loop ((loop.absorb result).recordCancelled stepId result) := by
  have hrecord := loop.records_absorb_record stepId result
  refine hrecord.trans (records_of_outcomes .cancelled ?_ rfl (.refl _) rfl)
  show ((loop.absorb result).state.applyCancelled stepId result).outcomes =
    ((loop.absorb result).state.apply stepId result).outcomes.insert stepId .cancelled
  rw [outcomes_apply]
  rfl

end

/-- Both ways of recording a stage that threw. -/
theorem records_threw (loop : Loop) (cancelled : Bool) (stepId : StepId)
    (result : StepExecutionResult) :
    Records stepId loop (if cancelled then (loop.absorb result).recordCancelled stepId result
      else (loop.absorb result).record stepId result) := by
  cases cancelled with
  | true => exact loop.records_absorb_recordCancelled stepId result
  | false => exact loop.records_absorb_record stepId result

theorem breakDepth_threw (loop : Loop) (cancelled : Bool) (stepId : StepId)
    (result : StepExecutionResult) :
    (if cancelled then (loop.absorb result).recordCancelled stepId result
      else (loop.absorb result).record stepId result).breakDepth = loop.breakDepth := by
  cases cancelled <;> exact loop.breakDepth_absorb result

theorem Records.markExecuted (h : Records stepId before after) (step : OrdinaryStep) :
    Records stepId before (after.markExecuted step) := by
  unfold Loop.markExecuted
  split
  · exact { h with advances := { h.advances with } }
  · exact h

theorem breakDepth_markExecuted (loop : Loop) (step : OrdinaryStep) :
    (loop.markExecuted step).breakDepth = loop.breakDepth := by
  unfold Loop.markExecuted
  split <;> rfl

section World

variable (world : World)

section

variable (loop : Loop) (step : OrdinaryStep)

theorem records_runPre : Records step.stepId loop (loop.runPre world step).1 := by
  unfold runPre
  split
  · exact (loop.records_absorb_record step.stepId _).markExecuted step
  · exact (loop.records_threw _ step.stepId _).markExecuted step

theorem breakDepth_runPre : (loop.runPre world step).1.breakDepth = loop.breakDepth := by
  unfold runPre
  split <;> rw [breakDepth_markExecuted]
  · exact loop.breakDepth_absorb _
  · exact loop.breakDepth_threw _ step.stepId _

theorem records_runMain : Records step.stepId loop (loop.runMain world step) := by
  unfold runMain
  split
  · exact (loop.records_absorb_record step.stepId _).markExecuted step
  · exact (loop.records_threw _ step.stepId _).markExecuted step

theorem breakDepth_runMain : (loop.runMain world step).breakDepth = loop.breakDepth := by
  unfold runMain
  split <;> rw [breakDepth_markExecuted]
  · exact loop.breakDepth_absorb _
  · exact loop.breakDepth_threw _ step.stepId _

theorem runStages_spec :
    Records step.stepId loop (loop.runStages world step) ∧
      (loop.runStages world step).breakDepth = loop.breakDepth := by
  have hmain := And.intro (loop.records_runMain world step) (loop.breakDepth_runMain world step)
  unfold runStages
  split
  · exact hmain
  split
  · exact ⟨loop.records_absorb_record step.stepId failed, loop.breakDepth_absorb failed⟩
  · exact hmain
  · have hpre := loop.records_runPre world step
    have hbreak := loop.breakDepth_runPre world step
    dsimp only
    split
    · exact ⟨hpre.trans (records_runMain world _ step),
        (breakDepth_runMain world _ step).trans hbreak⟩
    · exact ⟨hpre, hbreak⟩

end

/-- A condition of the step failed to evaluate in some state. -/
def ConditionErrs (condition : Option Str) : Prop :=
  ∃ text, conditionText condition = some text ∧
    ∃ iteration state error, world.evaluate iteration .condition state text = .error error

theorem conditionErrs_of_evaluate {iteration : Nat} {state : JobExecutionState}
    {condition : Option Str} {error : Str}
    (h : world.evaluateCondition iteration state condition = .error error) :
    ConditionErrs world condition := by
  unfold World.evaluateCondition at h
  split at h
  · cases h
  case h_2 text htext => exact ⟨text, htext, _, _, _, h⟩

theorem topFailed_absorb_failed (loop : Loop) (h : loop.frames ≠ []) :
    TopFailed (loop.absorb failed).frames := by
  unfold absorb
  cases hframes : loop.frames with
  | nil => exact absurd hframes h
  | cons frame => exact frame.standing_ne_zero (by decide)

/-- An ordinary step that is not passed over records an outcome.  It breaks the
    open composite only by a condition that cannot be evaluated, and then the
    frame has failed. -/
theorem runOrdinary_spec (loop : Loop) (step : OrdinaryStep) :
    Records step.stepId loop (loop.runOrdinary world step) ∧
      ((loop.runOrdinary world step).breakDepth = loop.breakDepth ∨
        ((loop.runOrdinary world step).breakDepth = some 0 ∧ loop.frames ≠ [] ∧
          TopFailed (loop.runOrdinary world step).frames
            ∧ ConditionErrs world step.condition)) := by
  unfold runOrdinary
  split
  case h_1 error herror =>
    have hrecords : Records step.stepId loop (loop.failCondition step) := by
      have h := loop.records_absorb_record step.stepId failed
      exact { h with advances := { h.advances with } }
    refine ⟨hrecords, ?_⟩
    by_cases hframes : loop.frames = []
    · refine .inl ?_
      show (if loop.frames.isEmpty then loop.breakDepth else some 0) = loop.breakDepth
      rw [hframes]
      rfl
    · refine .inr ⟨?_, hframes, loop.topFailed_absorb_failed hframes,
        conditionErrs_of_evaluate world herror⟩
      show (if loop.frames.isEmpty then loop.breakDepth else some 0) = some 0
      rw [if_neg (by simpa using hframes)]
  case h_2 => exact ⟨loop.records_record step.stepId skippedResult, .inl rfl⟩
  case h_3 =>
    obtain ⟨hrecords, hbreak⟩ := loop.runStages_spec world step
    exact ⟨hrecords, .inl hbreak⟩

end World

/-! ## Regions that are passed over -/

theorem run_cons (loop : Loop) (step : ExecutableStep) (rest : List ExecutableStep) :
    loop.run world (step :: rest) = (loop.step world step).run world rest := rfl

theorem run_append (loop : Loop) (first second : List ExecutableStep) :
    loop.run world (first ++ second) = (loop.run world first).run world second :=
  foldl_append ..

theorem step_of_dispatch {world : World} (step : ExecutableStep)
    (h : loop.dispatch world step = after) :
    loop.step world step = { after with iteration := loop.iteration + 1 } := by
  rw [← h]
  rfl

/-- Inside a skipped umbrella, or inside a composite that started after a break. -/
def Passing (loop : Loop) : Prop :=
  (∃ resume, loop.skipDepth = some resume ∧ resume < loop.compositeDepth) ∨
    (loop.skipDepth = none ∧ ∃ resume, loop.breakDepth = some resume ∧
      resume < loop.compositeDepth ∧ loop.frames.length < loop.compositeDepth)

def later (loop : Loop) (iterations : Nat) : Loop :=
  { loop with iteration := loop.iteration + iterations }

theorem Passing.passesOver (h : loop.Passing) (isOutputs : Bool) :
    loop.passesOver isOutputs = true := by
  unfold Loop.passesOver
  rcases h with ⟨resume, hskip, _⟩ | ⟨hskip, resume, hbreak, _, hframes⟩
  · rw [hskip]
    rfl
  · rw [hskip, hbreak]
    simp [Nat.not_le.mpr hframes]

theorem closeComposite_counting (loop : Loop) (hactive : loop.closesActiveFrame stepId = false)
    (h : (∃ resume, loop.skipDepth = some resume ∧ resume < loop.compositeDepth - 1) ∨
      ∃ resume, loop.breakDepth = some resume ∧ resume < loop.compositeDepth - 1) :
    loop.closeComposite world stepId = { loop with compositeDepth := loop.compositeDepth - 1 } := by
  have hbelow : ((loop.skipDepth.any fun resume => resume < loop.compositeDepth - 1) ||
      (loop.breakDepth.any fun resume => resume < loop.compositeDepth - 1)) = true := by
    rcases h with ⟨resume, heq, hlt⟩ | ⟨resume, heq, hlt⟩ <;> simp [heq, hlt]
  unfold closeComposite
  dsimp only
  rw [hbelow, hactive]
  rfl

/-- The innermost open composite. -/
abbrev owner (loop : Loop) : Option StepId := loop.frames.head?.map CompositeFrame.stepId

theorem owner_congr (h : after.frames = loop.frames) : after.owner = loop.owner := by
  rw [owner, owner, h]

theorem closesActiveFrame_eq_false (h : loop.owner ≠ some stepId) :
    loop.closesActiveFrame stepId = false := by
  unfold closesActiveFrame
  cases hframes : loop.frames with
  | nil => rfl
  | cons =>
    rw [owner, hframes] at h
    exact decide_eq_false fun heq => h (congrArg some heq)

/-- One level down, with no scope or frame of its own. -/
def deeper (loop : Loop) : Loop :=
  { loop with compositeDepth := loop.compositeDepth + 1, iteration := loop.iteration + 1 }

theorem step_start_counting (h : (loop.skipDepth.isSome || loop.breakDepth.isSome) = true) :
    loop.step world (.compositeStart umbrella) = loop.deeper :=
  step_of_dispatch (.compositeStart umbrella) (if_pos h)

theorem Passing.counts (h : loop.Passing) :
    (loop.skipDepth.isSome || loop.breakDepth.isSome) = true := by
  rcases h with ⟨resume, heq, -⟩ | ⟨-, resume, heq, -⟩ <;> simp [heq]

theorem Passing.deeper (h : loop.Passing) : loop.deeper.Passing :=
  h.imp (fun ⟨resume, hskip, hlt⟩ => ⟨resume, hskip, Nat.lt_succ_of_lt hlt⟩)
    fun ⟨hskip, resume, hbreak, hlt, hframes⟩ =>
      ⟨hskip, resume, hbreak, Nat.lt_succ_of_lt hlt, Nat.lt_succ_of_lt hframes⟩

/-- A composite that is passed over, start, body and end, given that its body is. -/
theorem run_composite_counting (body rest : Plan)
    (hresume : (∃ resume, loop.skipDepth = some resume ∧ resume < loop.compositeDepth) ∨
      ∃ resume, loop.breakDepth = some resume ∧ resume < loop.compositeDepth)
    (hactive : loop.owner ≠ some umbrella.stepId)
    (hbody : loop.deeper.run world body.flatten = loop.deeper.later body.flatten.length) :
    loop.run world (Plan.composite umbrella body rest).flatten =
      (loop.later (body.flatten.length + 2)).run world rest.flatten := by
  have hcounts : (loop.skipDepth.isSome || loop.breakDepth.isSome) = true := by
    rcases hresume with ⟨resume, heq, _⟩ | ⟨resume, heq, _⟩ <;> simp [heq]
  have hclose := step_of_dispatch (.compositeEnd umbrella.stepId)
    (closeComposite_counting world (loop.deeper.later body.flatten.length)
      (closesActiveFrame_eq_false hactive) hresume)
  rw [Plan.flatten, run_cons, run_append, step_start_counting world umbrella hcounts, hbody,
    run_cons, hclose]
  have hiteration : loop.iteration + 1 + body.flatten.length + 1 =
      loop.iteration + (body.flatten.length + 2) := by omega
  show Loop.run world { loop with iteration := loop.iteration + 1 + body.flatten.length + 1 } _ = _
  rw [hiteration]
  rfl

theorem run_passing (plan : Plan) (loop : Loop) (h : loop.Passing)
    (hids : ∀ id ∈ plan.umbrellaIds, loop.owner ≠ some id) :
    loop.run world plan.flatten = loop.later plan.flatten.length := by
  induction plan generalizing loop with
  | done => rfl
  | action step rest ih | outputs step rest ih =>
    simp only [Plan.flatten, run_cons, Loop.step, dispatch, h.passesOver, if_true]
    refine (ih (loop.later 1) h hids).trans ?_
    unfold later
    congr 1
    simp only [length_cons]
    omega
  | composite umbrella body rest ihBody ihRest =>
    have hresume : (∃ resume, loop.skipDepth = some resume ∧ resume < loop.compositeDepth) ∨
        ∃ resume, loop.breakDepth = some resume ∧ resume < loop.compositeDepth :=
      h.imp_right fun ⟨_, resume, hbreak, hlt, _⟩ => ⟨resume, hbreak, hlt⟩
    rw [run_composite_counting world umbrella body rest hresume (hids _ mem_cons_self)]
    · rw [ihRest (loop.later _) h
        fun id hid => hids id (mem_cons_of_mem _ (mem_append_right _ hid))]
      unfold later
      congr 1
      show loop.iteration + (body.flatten.length + 2) + rest.flatten.length = _
      rw [Plan.flatten, length_cons, length_append, length_cons]
      omega
    · exact ihBody loop.deeper h.deeper fun id hid =>
        hids id (mem_cons_of_mem _ (mem_append_left _ hid))

end Loop

end Velnor.Executor
