/-
  A plan of the guarded shape drops no step silently.

  Outside skipped regions the loop is in one of two modes: `Normal`, or
  `Breaking` after a condition inside a composite failed to evaluate.  The
  induction over the plan carries one fact about a break: either the innermost
  open frame stands failed, so that its umbrella will explain what is dropped,
  or everything so far is accounted for and nothing but outputs steps follows.
-/
import Velnor.Executor.LoopSpec

namespace Velnor.Executor

open Collections JobExecutionState List Bool Plan Option

namespace Loop

/-! ## Modes -/

structure Normal (loop : Loop) : Prop where
  skip : loop.skipDepth = none
  unbroken : loop.breakDepth = none
  depth : loop.compositeDepth = loop.frames.length

structure Breaking (loop : Loop) : Prop where
  skip : loop.skipDepth = none
  broken : loop.breakDepth = some 0
  depth : loop.compositeDepth = loop.frames.length
  inside : loop.frames ≠ []

variable {loop before after : Loop} {stepId : StepId} {frame : CompositeFrame}
  {parents : List CompositeFrame} {world : World}

theorem Normal.not_passesOver (h : loop.Normal) (isOutputs : Bool) :
    ¬ loop.passesOver isOutputs = true := by
  simp [passesOver, h.skip, h.unbroken]

theorem Normal.counts (h : loop.Normal) :
    (loop.skipDepth.isSome || loop.breakDepth.isSome) = false := by
  rw [h.skip, h.unbroken]
  rfl

theorem Breaking.depth_pos (h : loop.Breaking) : 0 < loop.compositeDepth := by
  rw [h.depth]
  exact length_pos_iff.mpr h.inside

theorem Breaking.passesOver_action (h : loop.Breaking) : loop.passesOver false = true := by
  unfold Loop.passesOver
  rw [h.skip, h.broken]
  rfl

/-- The outputs of a frame that is still open are mapped. -/
theorem Breaking.not_passesOver_outputs (h : loop.Breaking) : ¬ loop.passesOver true = true := by
  have hpos := h.depth_pos
  simp [Loop.passesOver, h.skip, h.broken, h.depth ▸ hpos, h.depth]

theorem Breaking.later (h : loop.Breaking) (iterations : Nat) :
    (loop.later iterations).Breaking := { h with }

/-! ## Leaving a composite -/

theorem closeComposite_active (world : World) (hframes : loop.frames = frame :: parents)
    (hid : frame.stepId = stepId) :
    loop.closeComposite world stepId =
      ({ loop with compositeDepth := loop.compositeDepth - 1 } : Loop).close world stepId := by
  have hactive : loop.closesActiveFrame stepId = true := by
    unfold closesActiveFrame
    rw [hframes]
    exact decide_eq_true hid
  unfold closeComposite
  dsimp only
  rw [hactive, Bool.not_true, Bool.and_false]
  rfl

/-- The frame a closing composite leaves, and what the loop does with it. -/
structure Left (world : World) (stepId : StepId) (frame : CompositeFrame)
    (parents : List CompositeFrame) (before after : Loop) : Prop where
  depth : after.compositeDepth = before.compositeDepth - 1
  skip : after.skipDepth = none
  broken : after.breakDepth =
    if before.breakDepth.any fun resume => before.compositeDepth - 1 ≤ resume then none
    else before.breakDepth
  outcomes : after.state.outcomes = before.state.outcomes.insert stepId
    (outcomeOf (frame.umbrellaResult (world.cancelled before.iteration .close)))
  frames : after.frames = match parents with
    | [] => []
    | parent :: rest =>
      parent.mergeNested frame (frame.umbrellaResult (world.cancelled before.iteration .close))
        :: rest

theorem left_step (world : World) (hframes : loop.frames = frame :: parents)
    (hid : frame.stepId = stepId) :
    Left world stepId frame parents loop (loop.step world (.compositeEnd stepId)) := by
  have hdispatch : loop.dispatch world (.compositeEnd stepId) =
      ({ loop with compositeDepth := loop.compositeDepth - 1 } : Loop).close world stepId :=
    closeComposite_active world hframes hid
  rw [step_of_dispatch _ hdispatch]
  unfold close
  rw [hframes]
  refine ⟨rfl, rfl, rfl, ?_, rfl⟩
  unfold popFrame
  dsimp only
  split <;> rfl

/-- A composite from before its start to after its end, given what happened to
    the loop between the two. -/
theorem Left.advances {final : CompositeFrame} {inside last : Loop} {ids : List StepId}
    (hleft : Left world stepId final before.frames last after)
    (hdepth : inside.compositeDepth = before.compositeDepth + 1)
    (houtcomes : inside.state.outcomes = before.state.outcomes) (hrun : Advances ids inside last) :
    Advances (stepId :: ids) before after := by
  refine ⟨?_, ?_, fun id hid => ?_, fun id h => ?_⟩
  · rw [hleft.depth, hrun.depth, hdepth, Nat.add_sub_cancel]
  · rw [hleft.frames]
    cases before.frames with
    | nil => rfl
    | cons parent => exact ⟨_, rfl, parent.advances_standing _ _⟩
  · have hne : id ≠ stepId := fun heq => hid (heq ▸ mem_cons_self)
    have hids : id ∉ ids := fun hmem => hid (mem_cons_of_mem _ hmem)
    rw [hleft.outcomes, OrderedMap.get?_insert_of_ne _ _ hne, hrun.same id hids, houtcomes]
  · rw [hleft.outcomes]
    refine get?_insert_kept _ (hrun.kept id ?_)
    rwa [houtcomes]

theorem Left.recorded (h : Left world stepId frame parents before after) :
    after.state.outcomes.get? stepId ≠ none := by
  rw [h.outcomes, OrderedMap.get?_insert_self]
  exact some_ne_none _

/-- A frame that was skipped or stands failed makes its umbrella explain its
    steps. -/
theorem Left.explains (h : Left world stepId frame parents before after)
    (hframe : frame.skipped = true ∨ frame.exitCode ≠ 0) :
    Explains after.state.outcomes stepId := by
  unfold Explains
  rw [h.outcomes, OrderedMap.get?_insert_self]
  unfold outcomeOf CompositeFrame.umbrellaResult
  by_cases hskipped : frame.skipped = true
  · exact .inl (by rw [if_pos hskipped])
  · exact .inr (by rw [if_neg hskipped, if_neg (hframe.resolve_left hskipped)])

/-! ## Entering a composite -/

/-- The loop inside a composite it has just entered. -/
structure Entered (umbrella : Umbrella) (before after : Loop) (frame : CompositeFrame) : Prop where
  depth : after.compositeDepth = before.compositeDepth + 1
  outcomes : after.state.outcomes = before.state.outcomes
  frames : after.frames = frame :: before.frames
  stepId : frame.stepId = umbrella.stepId
  continueOnError : frame.continueOnError = umbrella.continueOnError
  unbroken : after.breakDepth = before.breakDepth

theorem Entered.owner {umbrella : Umbrella} (h : Entered umbrella before after frame) :
    after.owner = some umbrella.stepId := by
  rw [Loop.owner, h.frames]
  exact congrArg some h.stepId

theorem Entered.passing {umbrella : Umbrella} (h : Entered umbrella before after frame)
    (hskip : after.skipDepth = some before.compositeDepth) : after.Passing :=
  .inl ⟨before.compositeDepth, hskip, h.depth ▸ Nat.lt_succ_self _⟩

theorem normal_entered {umbrella : Umbrella} (h : before.Normal)
    (hentered : Entered umbrella before after frame) (hskip : after.skipDepth = none) :
    after.Normal := by
  refine ⟨hskip, hentered.unbroken.trans h.unbroken, ?_⟩
  rw [hentered.depth, hentered.frames, length_cons, h.depth]

/-- The three verdicts on an umbrella's condition: its steps run, or they are
    skipped under a frame that will explain it. -/
theorem entered_step (world : World) (h : loop.Normal) (umbrella : Umbrella) :
    ∃ frame, Entered umbrella loop (loop.step world (.compositeStart umbrella)) frame ∧
      (((loop.step world (.compositeStart umbrella)).skipDepth = none ∧ frame.skipped = false) ∨
        ((loop.step world (.compositeStart umbrella)).skipDepth = some loop.compositeDepth ∧
          (frame.skipped = true ∨ frame.exitCode ≠ 0))) := by
  unfold step dispatch openComposite
  simp only [h.counts, false_eq_true, if_false]
  split
  · exact ⟨_, ⟨rfl, rfl, rfl, rfl, rfl, rfl⟩, .inl ⟨h.skip, rfl⟩⟩
  · exact ⟨_, ⟨rfl, rfl, rfl, rfl, rfl, rfl⟩, .inr ⟨rfl, .inl rfl⟩⟩
  · exact ⟨_, ⟨rfl, rfl, rfl, rfl, rfl, rfl⟩, .inr ⟨rfl, .inr Int.one_ne_zero⟩⟩

/-! ## Ordinary steps in the two modes -/

/-- Conditions fail to evaluate only where `mayFail` allows it. -/
def FailsOnly (world : World) (mayFail : Str → Bool) : Prop :=
  ∀ iteration state text error,
    world.evaluate iteration .condition state text = .error error → mayFail text = true

theorem FailsOnly.any {mayFail : Str → Bool} (h : FailsOnly world mayFail)
    {condition : Option Str} (herrs : ConditionErrs world condition) :
    (conditionText condition).any mayFail = true := by
  obtain ⟨text, htext, iteration, state, error, herror⟩ := herrs
  rw [htext]
  exact h iteration state text error herror

theorem Records.step (h : Records stepId before after) (iteration : Nat) :
    Records stepId before { after with iteration := iteration } :=
  { h with advances := { h.advances with } }

/-- In normal mode a step is recorded; the loop then goes on, or it breaks with
    the innermost frame failed. -/
theorem normal_ordinary (world : World) (h : loop.Normal) (step : OrdinaryStep) (iteration : Nat) :
    Records step.stepId loop { loop.runOrdinary world step with iteration := iteration } ∧
      (({ loop.runOrdinary world step with iteration := iteration } : Loop).Normal ∨
        (({ loop.runOrdinary world step with iteration := iteration } : Loop).Breaking ∧
          TopFailed (loop.runOrdinary world step).frames ∧
          ConditionErrs world step.condition)) := by
  obtain ⟨hrecords, hbreak⟩ := loop.runOrdinary_spec world step
  have hdepth : (loop.runOrdinary world step).compositeDepth =
      (loop.runOrdinary world step).frames.length := by
    rw [hrecords.advances.depth, hrecords.advances.frames.length_eq, h.depth]
  have hskip : (loop.runOrdinary world step).skipDepth = none := hrecords.skipDepth.trans h.skip
  refine ⟨hrecords.step iteration, hbreak.imp (fun hsame => ?_) fun hbroken => ?_⟩
  · exact ⟨hskip, hsame.trans h.unbroken, hdepth⟩
  obtain ⟨hbroken, hframes, hfailed, herrs⟩ := hbroken
  exact ⟨⟨hskip, hbroken, hdepth, hrecords.advances.frames.ne_nil hframes⟩, hfailed, herrs⟩

/-- A break goes on until the outermost composite ends. -/
theorem step_breaking_action (world : World) (h : loop.Breaking) (step : ActionStep) :
    loop.step world (.action step) = loop.later 1 :=
  step_of_dispatch (.action step) (if_pos h.passesOver_action)

theorem breaking_outputs (world : World) (h : loop.Breaking) (step : OutputsStep) :
    Records step.stepId loop (loop.step world (.compositeOutputs step)) ∧
      (loop.step world (.compositeOutputs step)).Breaking := by
  rw [step_of_dispatch (.compositeOutputs step) (if_neg h.not_passesOver_outputs)]
  obtain ⟨hrecords, hbreak⟩ := loop.runOrdinary_spec world step.ordinary
  refine ⟨hrecords.step _, hrecords.skipDepth.trans h.skip, ?_, ?_,
    hrecords.advances.frames.ne_nil h.inside⟩
  · exact hbreak.elim (fun hsame => hsame.trans h.broken) And.left
  · rw [hrecords.advances.depth, hrecords.advances.frames.length_eq, h.depth]

/-! ## Whole plans -/

theorem head_stepId_ne {owner : Option StepId} {id : StepId} (howner : loop.owner = owner)
    (h : some id ≠ owner) : loop.owner ≠ some id := fun heq => h (heq ▸ howner)

end Loop

namespace Plan

theorem ownIds_outputs (step : OutputsStep) (rest : Plan) (owner : Option StepId) :
    rest.ownIds owner <+ (outputs step rest).ownIds owner := by
  rw [ownIds]
  split
  · exact List.Sublist.refl _
  · exact sublist_cons_self ..

theorem umbrellaIds_sublist_ownIds (plan : Plan) (owner : Option StepId) :
    plan.umbrellaIds <+ plan.ownIds owner := by
  induction plan generalizing owner with
  | done => exact .slnil
  | action _ _ ih => exact (ih owner).cons _
  | outputs _ _ ih => exact (ih owner).trans (ownIds_outputs ..)
  | composite _ _ _ ihBody ihRest => exact ((ihBody _).append (ihRest owner)).cons_cons _

theorem mem_ownIds_of_mem_ids {plan : Plan} (owner : Option StepId) {id : StepId}
    (h : id ∈ plan.ids) : id ∈ plan.ownIds owner ∨ some id = owner := by
  induction plan generalizing owner with
  | done => cases h
  | action _ _ ih =>
    rcases mem_cons.mp h with rfl | h
    · exact .inl mem_cons_self
    · exact (ih owner h).imp_left (mem_cons_of_mem _)
  | outputs _ _ ih =>
    rcases mem_cons.mp h with rfl | h
    · rw [ownIds]
      split
      · exact .inr ‹_›
      · exact .inl mem_cons_self
    · exact (ih owner h).imp_left fun h => (ownIds_outputs ..).subset h
  | composite umbrella _ _ ihBody ihRest =>
    rcases mem_cons.mp h with rfl | h
    · exact .inl mem_cons_self
    rcases mem_append.mp h with h | h
    · rcases ihBody (some umbrella.stepId) h with h | h
      · exact .inl (mem_cons_of_mem _ (mem_append_left _ h))
      · cases h
        exact .inl mem_cons_self
    · exact (ihRest owner h).imp_left fun h =>
        mem_cons_of_mem _ (mem_append_right _ h)

/-- The ids of a stretch of a plan are fresh: distinct, and none is that of the
    composite it stands in. -/
def Fresh (owner : Option StepId) (plan : Plan) : Prop := (owner.toList ++ plan.ownIds owner).Nodup

namespace Fresh

variable {owner : Option StepId} {plan rest body : Plan}

variable {id : StepId}

/-- No composite of the stretch is the one it stands in. -/
theorem ne_owner (h : plan.Fresh owner) (hid : id ∈ plan.umbrellaIds) : some id ≠ owner := by
  rintro rfl
  exact (nodup_append.mp h).2.2 id (mem_singleton_self _) id
    ((umbrellaIds_sublist_ownIds ..).subset hid) rfl

theorem of_action {step : ActionStep} (h : (action step rest).Fresh owner) : rest.Fresh owner :=
  h.sublist (List.Sublist.append_left (sublist_cons_self ..) _)

theorem of_outputs {step : OutputsStep} (h : (outputs step rest).Fresh owner) : rest.Fresh owner :=
  h.sublist (List.Sublist.append_left (ownIds_outputs ..) _)

/-- What follows an action does not record under its id. -/
theorem action_notMem_rest {step : ActionStep} (h : (action step rest).Fresh owner) :
    step.stepId ∉ rest.ids := by
  intro hrest
  rcases mem_ownIds_of_mem_ids owner hrest with hrest | rfl
  · exact (nodup_cons.mp (nodup_append.mp h).2.1).1 hrest
  · exact (nodup_append.mp h).2.2 step.stepId (mem_singleton_self _) step.stepId mem_cons_self rfl

/-- What follows an outputs step has other ids of its own. -/
theorem ne_outputs {step : OutputsStep} (h : (outputs step rest).Fresh owner)
    (hid : id ∈ rest.ownIds owner) : id ≠ step.stepId := by
  rintro rfl
  unfold Fresh at h
  rw [ownIds] at h
  split at h
  case isTrue heq =>
    subst heq
    exact (nodup_append.mp h).2.2 step.stepId (mem_singleton_self _) _ hid rfl
  case isFalse => exact (nodup_cons.mp (nodup_append.mp h).2.1).1 hid

variable {umbrella : Umbrella}

section

variable (h : (composite umbrella body rest).Fresh owner)
include h

theorem rest_of_composite : rest.Fresh owner :=
  h.sublist (List.Sublist.append_left ((sublist_append_right ..).trans (sublist_cons_self ..)) _)

theorem body_of_composite : body.Fresh (some umbrella.stepId) :=
  (nodup_append.mp h).2.1.sublist (cons_sublist_cons.mpr (sublist_append_left ..))

theorem umbrella_notMem_body : umbrella.stepId ∉ body.umbrellaIds := fun hmem =>
  (nodup_cons.mp (nodup_append.mp h).2.1).1
    (mem_append_left _ ((umbrellaIds_sublist_ownIds ..).subset hmem))

theorem owner_ne {loop : Loop} (howner : loop.owner = owner) :
    ∀ id ∈ umbrella.stepId :: body.umbrellaIds, loop.owner ≠ some id := fun _ hid =>
  Loop.head_stepId_ne howner (h.ne_owner (mem_append_left rest.umbrellaIds hid))

/-- What follows a composite records under none of its ids. -/
theorem notMem_rest :
    ∀ id ∈ umbrella.stepId :: body.ownIds (some umbrella.stepId), id ∉ rest.ids := by
  intro id hown hrest
  rcases mem_ownIds_of_mem_ids owner hrest with hrest | rfl
  · exact (nodup_append.mp
      (show ((umbrella.stepId :: body.ownIds (some umbrella.stepId)) ++ rest.ownIds owner).Nodup
        from (nodup_append.mp h).2.1)).2.2 id hown id hrest rfl
  · refine (nodup_append.mp h).2.2 id (mem_singleton_self _) id ?_ rfl
    exact mem_append_left (rest.ownIds (some id)) hown

/-- A composite records under none of the ids of what follows it. -/
theorem rest_notMem_block (hid : id ∈ rest.ownIds owner) : id ∉ umbrella.stepId :: body.ids := by
  intro hmem
  have hown : id ∈ umbrella.stepId :: body.ownIds (some umbrella.stepId) := by
    rcases mem_cons.mp hmem with rfl | hmem
    · exact mem_cons_self
    · rcases mem_ownIds_of_mem_ids (some umbrella.stepId) hmem with hmem | heq
      · exact mem_cons_of_mem _ hmem
      · exact some.inj heq ▸ mem_cons_self
  exact (nodup_append.mp
    (show ((umbrella.stepId :: body.ownIds (some umbrella.stepId)) ++ rest.ownIds owner).Nodup
      from (nodup_append.mp h).2.1)).2.2 id hown id hid rfl

end

end Fresh

end Plan

namespace Loop

theorem advances_later (loop : Loop) (iterations : Nat) :
    Advances [] loop (loop.later iterations) :=
  ⟨rfl, .refl _, fun _ _ => rfl, fun _ h => h⟩

/-- A composite that starts after a break is passed over. -/
theorem run_composite_breaking (world : World) {loop : Loop} {umbrella : Umbrella}
    {body : Plan} (rest : Plan) (h : loop.Breaking)
    (hother : ∀ id ∈ umbrella.stepId :: body.umbrellaIds, loop.owner ≠ some id) :
    loop.run world (composite umbrella body rest).flatten =
      (loop.later (body.flatten.length + 2)).run world rest.flatten := by
  have hpassing : loop.deeper.Passing :=
    .inr ⟨h.skip, 0, h.broken, Nat.succ_pos _, Nat.lt_succ_of_le (Nat.le_of_eq h.depth.symm)⟩
  have hbody := run_passing world body loop.deeper hpassing fun id hid =>
    hother id (mem_cons_of_mem _ hid)
  exact run_composite_counting world umbrella body rest (.inr ⟨0, h.broken, h.depth_pos⟩)
    (hother _ mem_cons_self) hbody

/-- After a break, until the innermost open composite ends: nothing runs but its
    outputs steps. -/
theorem run_breaking (world : World) (plan : Plan) {loop : Loop} {owner : Option StepId}
    (h : loop.Breaking) (howner : loop.owner = owner) (hfresh : plan.Fresh owner) :
    Advances plan.ids loop (loop.run world plan.flatten) ∧
      (loop.run world plan.flatten).Breaking ∧
      (plan.onlyOutputs = true → plan.Accounted (loop.run world plan.flatten).state.outcomes) := by
  induction plan generalizing loop with
  | done => exact ⟨.refl loop, h, fun _ => trivial⟩
  | action step _ ih =>
    obtain ⟨hadv, hbreaking, _⟩ := ih (h.later 1) howner hfresh.of_action
    rw [Plan.flatten, run_cons, step_breaking_action world h]
    refine ⟨((loop.advances_later 1).trans hadv).weaken fun _ hid => ?_, hbreaking, by rintro ⟨⟩⟩
    exact mem_cons_of_mem _ hid
  | outputs step _ ih =>
    obtain ⟨hrecords, hnext⟩ := breaking_outputs world h step
    have hnextOwner := hrecords.advances.frames.head_stepId.trans howner
    obtain ⟨hadv, hbreaking, hacc⟩ := ih hnext hnextOwner hfresh.of_outputs
    refine ⟨hrecords.advances.trans hadv, hbreaking, fun honly => ?_⟩
    exact ⟨hadv.kept _ hrecords.recorded, hacc honly⟩
  | composite _ _ rest _ ihRest =>
    rw [run_composite_breaking world rest h (hfresh.owner_ne howner)]
    obtain ⟨hadv, hbreaking, _⟩ := ihRest (h.later _) howner hfresh.rest_of_composite
    refine ⟨((loop.advances_later _).trans hadv).weaken fun _ hid => ?_, hbreaking, by rintro ⟨⟩⟩
    exact mem_cons_of_mem _ (mem_append_right _ hid)

section Guarded

variable {world : World} {mayFail : Str → Bool}

/-- How a stretch of a plan that started in normal mode ends, and what is known
    if it is of the guarded shape: after a break either the innermost frame
    stands failed, or all is accounted for and only outputs steps follow in the
    composites around. -/
structure Outcome (mayFail : Str → Bool) (plan : Plan) (clear : Option Bool)
    (guard : Prop) (before after : Loop) : Prop where
  advances : Advances plan.ids before after
  mode : (after.Normal ∧ (guard → plan.Accounted after.state.outcomes)) ∨
    (after.Breaking ∧ plan.fallible mayFail = true ∧
      (guard → TopFailed after.frames ∨ (clear = some true ∧ plan.Accounted after.state.outcomes)))

variable {rest body : Plan} {clear : Option Bool} {guard : Prop} {owner : Option StepId}
  {loop : Loop} {umbrella : Umbrella}

/-- An ordinary step, then the rest of the stretch. -/
theorem outcome_ordinary (hworld : FailsOnly world mayFail) {plan : Plan} {step : OrdinaryStep}
    {executable : ExecutableStep} (h : loop.Normal)
    (howner : loop.owner = owner) (hrest : rest.Fresh owner)
    (hflatten : plan.flatten = executable :: rest.flatten)
    (hdispatch : loop.dispatch world executable = loop.runOrdinary world step)
    (hids : plan.ids = step.stepId :: rest.ids)
    (hfallible : plan.fallible mayFail =
      ((conditionText step.condition).any mayFail || rest.fallible mayFail))
    (hacc : ∀ outcomes, outcomes.get? step.stepId ≠ none → rest.Accounted outcomes →
      plan.Accounted outcomes)
    (ih : ∀ loop : Loop, loop.Normal →
      loop.owner = owner →
      Outcome mayFail rest clear guard loop (loop.run world rest.flatten)) :
    Outcome mayFail plan clear guard loop (loop.run world plan.flatten) := by
  obtain ⟨hrecords, hmode⟩ := normal_ordinary world h step (loop.iteration + 1)
  have hnextOwner := hrecords.advances.frames.head_stepId.trans howner
  rw [hflatten, run_cons, step_of_dispatch executable hdispatch]
  rcases hmode with hnormal | ⟨hbreaking, hfailed, herrs⟩
  · have hout := ih _ hnormal hnextOwner
    have hrecorded := hout.advances.kept _ hrecords.recorded
    refine ⟨hids ▸ hrecords.advances.trans hout.advances, hout.mode.imp (fun hnext => ?_) ?_⟩
    · exact ⟨hnext.1, fun hguard => hacc _ hrecorded (hnext.2 hguard)⟩
    · rintro ⟨hbreaking, hmay, hwhy⟩
      refine ⟨hbreaking, by rw [hfallible, hmay, Bool.or_true], fun hguard => ?_⟩
      exact (hwhy hguard).imp_right fun hclear => ⟨hclear.1, hacc _ hrecorded hclear.2⟩
  · obtain ⟨hadv, hstill, _⟩ := run_breaking world rest hbreaking hnextOwner hrest
    refine ⟨hids ▸ hrecords.advances.trans hadv, .inr ⟨hstill, ?_, fun _ => .inl ?_⟩⟩
    · rw [hfallible, hworld.any herrs, Bool.true_or]
    · exact TopFailed.advance hfailed hadv.frames

/-- The composite alone, as a plan. -/
abbrev block (umbrella : Umbrella) (body : Plan) : Plan := .composite umbrella body .done

theorem accounted_block {outcomes : OrderedMap StepId StepOutcome}
    (hrecorded : outcomes.get? umbrella.stepId ≠ none)
    (h : Explains outcomes umbrella.stepId ∨ body.Accounted outcomes) :
    (block umbrella body).Accounted outcomes := ⟨⟨hrecorded, h⟩, trivial⟩

/-- How a composite that was reached in normal mode leaves the loop; `last` says
    that only outputs steps follow it in the composites around. -/
structure BlockOutcome (mayFail : Str → Bool) (umbrella : Umbrella) (body : Plan)
    (last : Bool) (guard : Prop) (before after : Loop) : Prop where
  advances : Advances (umbrella.stepId :: body.ids) before after
  mode : (after.Normal ∧ (guard → (block umbrella body).Accounted after.state.outcomes)) ∨
    (after.Breaking ∧ body.fallible mayFail = true ∧
      (guard → TopFailed after.frames ∨
        (last = true ∧ (block umbrella body).Accounted after.state.outcomes)))

/-- A composite whose steps are skipped. -/
theorem blockOutcome_skipped {last : Bool} {inside : Loop} {frame : CompositeFrame}
    (h : loop.Normal) (hfresh : body.Fresh (some umbrella.stepId))
    (hentered : Entered umbrella loop inside frame)
    (hskip : inside.skipDepth = some loop.compositeDepth)
    (hframe : frame.skipped = true ∨ frame.exitCode ≠ 0) :
    BlockOutcome mayFail umbrella body last guard loop
      ((inside.run world body.flatten).step world (.compositeEnd umbrella.stepId)) := by
  have hrun := run_passing world body inside (hentered.passing hskip) fun id hid =>
    head_stepId_ne hentered.owner (hfresh.ne_owner hid)
  rw [hrun]
  have hleft := left_step world
    (show (inside.later body.flatten.length).frames = _ from hentered.frames) hentered.stepId
  have hadv := hleft.advances hentered.depth hentered.outcomes (advances_later inside _)
  have hbroken : inside.breakDepth = none := hentered.unbroken.trans h.unbroken
  refine ⟨hadv.weaken fun _ hid => ?_, .inl ⟨⟨hleft.skip, ?_, ?_⟩, ?_⟩⟩
  · exact mem_cons.mpr ((mem_cons.mp hid).imp_right nofun)
  · rw [hleft.broken]
    show (if inside.breakDepth.any _ = true then none else inside.breakDepth) = none
    rw [hbroken]
    rfl
  · rw [hadv.depth, hadv.frames.length_eq, h.depth]
  · exact fun _ => accounted_block hleft.recorded (.inl (hleft.explains hframe))

/-- A composite that was entered, from how its body ends. -/
theorem blockOutcome_entered {last : Bool} {inside ended : Loop} {frame : CompositeFrame}
    (h : loop.Normal) (hunused : umbrella.stepId ∉ body.umbrellaIds)
    (hentered : Entered umbrella loop inside frame)
    (hguard : guard → loop.frames ≠ [] → umbrella.continueOnError = true →
      body.fallible mayFail = true → last = true)
    (hbody : Outcome mayFail body (some last) guard inside ended) :
    BlockOutcome mayFail umbrella body last guard loop
      (ended.step world (.compositeEnd umbrella.stepId)) := by
  obtain ⟨final, hfinal, hframe⟩ :
      ∃ final, ended.frames = final :: loop.frames ∧ frame.Advances final := by
    have hframes := hbody.advances.frames
    rw [hentered.frames] at hframes
    exact hframes
  have hid : final.stepId = umbrella.stepId := hframe.stepId_eq.trans hentered.stepId
  have hcoe : final.continueOnError = umbrella.continueOnError := by
    obtain ⟨_, rfl, _⟩ := hframe
    exact hentered.continueOnError
  have hleft := left_step world hfinal hid
  generalize ended.step world (.compositeEnd umbrella.stepId) = after at hleft
  have hadv := hleft.advances hentered.depth hentered.outcomes hbody.advances
  have hdepth := hadv.depth.trans (h.depth.trans hadv.frames.length_eq.symm)
  -- what the body accounts for stays so when the umbrella is recorded
  have hkeep : body.Accounted ended.state.outcomes →
      (block umbrella body).Accounted after.state.outcomes := by
    intro hacc
    refine accounted_block hleft.recorded (.inr (hacc.mono ?_ ?_))
    · intro _ hrecorded
      rw [hleft.outcomes]
      exact get?_insert_kept _ hrecorded
    · intro _ hmem
      rw [hleft.outcomes]
      exact OrderedMap.get?_insert_of_ne _ _ fun heq => hunused (heq ▸ hmem)
  have hexplained : final.exitCode ≠ 0 →
      (block umbrella body).Accounted after.state.outcomes := fun hfailed =>
    accounted_block hleft.recorded (.inl (hleft.explains (.inr hfailed)))
  refine ⟨hadv, ?_⟩
  rcases hbody.mode with ⟨hnormal, hacc⟩ | ⟨hbreaking, hmay, hwhy⟩
  · refine .inl ⟨⟨hleft.skip, ?_, hdepth⟩, fun hshape => hkeep (hacc hshape)⟩
    rw [hleft.broken, hnormal.unbroken]
    rfl
  · have hlevel : ended.compositeDepth - 1 = loop.frames.length := by
      rw [hbreaking.depth, hfinal, length_cons, Nat.add_sub_cancel]
    have hwhy : guard → final.exitCode ≠ 0 ∨
        (last = true ∧ body.Accounted ended.state.outcomes) := by
      rw [hfinal] at hwhy
      exact fun hshape => (hwhy hshape).imp_right fun hclear =>
        ⟨some.inj hclear.1, hclear.2⟩
    have hbroken := hleft.broken
    rw [hbreaking.broken, hlevel] at hbroken
    cases hframes : loop.frames with
    | nil =>
      -- the outermost composite ends the break
      refine .inl ⟨⟨hleft.skip, ?_, hdepth⟩, fun hshape =>
        (hwhy hshape).elim hexplained fun hclear => hkeep hclear.2⟩
      rw [hbroken, hframes]
      rfl
    | cons parent parents =>
      have hparents : loop.frames ≠ [] := by
        rw [hframes]
        exact cons_ne_nil parent parents
      have hstill : after.Breaking := by
        refine ⟨hleft.skip, ?_, hdepth, hadv.frames.ne_nil hparents⟩
        rw [hbroken, hframes]
        rfl
      refine .inr ⟨hstill, hmay, fun hshape => ?_⟩
      by_cases hignored : (final.umbrellaResult
          (world.cancelled ended.iteration .close)).failureIgnored = true
      · -- ignored: the guard lets nothing but outputs follow
        have hparts : (final.exitCode ≠ 0 ∧ final.continueOnError = true) := by
          simp only [CompositeFrame.umbrellaResult, and_eq_true, decide_eq_true_eq] at hignored
          exact ⟨hignored.1.1.1, hignored.1.1.2⟩
        exact .inr ⟨hguard hshape hparents (hcoe ▸ hparts.2) hmay, hexplained hparts.1⟩
      · rcases hwhy hshape with hfailed | hclear
        · refine .inl ?_
          rw [hleft.frames, hframes]
          have hstands := parent.standing_ne_zero hfailed
          rw [← eq_false_iff.mpr hignored] at hstands
          exact hstands
        · exact .inr ⟨hclear.1, hkeep hclear.2⟩

/-- The part of the guard that concerns one composite. -/
def lastOf (clear : Option Bool) (rest : Plan) : Bool :=
  match clear with
  | none => true
  | some clear => clear && rest.onlyOutputs

theorem guardedIn_composite (h : (composite umbrella body rest).guardedIn mayFail clear = true) :
    (clear ≠ none → umbrella.continueOnError = true → body.fallible mayFail = true →
        lastOf clear rest = true) ∧
      body.guardedIn mayFail (some (lastOf clear rest)) = true ∧
      rest.guardedIn mayFail clear = true := by
  cases clear with
  | none =>
    rw [guardedIn, and_eq_true] at h
    exact ⟨fun hnone => absurd rfl hnone, h⟩
  | some =>
    rw [guardedIn, and_eq_true, and_eq_true, or_eq_true] at h
    refine ⟨fun _ hcoe hmay => h.1.1.resolve_left ?_, h.1.2, h.2⟩
    rw [hcoe, hmay]
    exact false_ne_true

/-- A composite, then the rest of the stretch. -/
theorem outcome_composite {after : Loop}
    (howner : loop.owner = owner)
    (hclear : clear.isSome = owner.isSome)
    (hfresh : (composite umbrella body rest).Fresh owner)
    (hblock : BlockOutcome mayFail umbrella body (lastOf clear rest) guard loop after)
    (ih : after.Normal → after.owner = owner →
      Outcome mayFail rest clear guard after (after.run world rest.flatten)) :
    Outcome mayFail (.composite umbrella body rest) clear guard loop
      (after.run world rest.flatten) := by
  have hafterOwner := hblock.advances.frames.head_stepId.trans howner
  -- what is accounted for in the composite stays so in the rest of the run
  have hkeep : Advances rest.ids after (after.run world rest.flatten) →
      (block umbrella body).Accounted after.state.outcomes →
      (block umbrella body).Accounted (after.run world rest.flatten).state.outcomes :=
    fun hadv hacc => hacc.mono hadv.kept fun id hid => hadv.same id (hfresh.notMem_rest id
      (by simpa [ownIds] using (umbrellaIds_sublist_ownIds _ owner).subset hid))
  rcases hblock.mode with ⟨hnormal, hacc⟩ | ⟨hbreaking, hmay, hwhy⟩
  · have hout := ih hnormal hafterOwner
    refine ⟨hblock.advances.trans hout.advances, hout.mode.imp (fun hnext => ?_) ?_⟩
    · exact ⟨hnext.1, fun hshape => ⟨(hkeep hout.advances (hacc hshape)).1, hnext.2 hshape⟩⟩
    rintro ⟨hbreaking, hmay, hwhy⟩
    refine ⟨hbreaking, ?_, fun hshape => (hwhy hshape).imp_right fun hlast => ?_⟩
    · rw [fallible, hmay, Bool.or_true]
    · exact ⟨hlast.1, (hkeep hout.advances (hacc hshape)).1, hlast.2⟩
  · obtain ⟨hadv, hstill, houtputs⟩ :=
      run_breaking world rest hbreaking hafterOwner hfresh.rest_of_composite
    refine ⟨hblock.advances.trans hadv, .inr ⟨hstill, ?_, fun hshape => ?_⟩⟩
    · rw [fallible, hmay, Bool.true_or]
    refine (hwhy hshape).imp (fun hfailed => hfailed.advance hadv.frames) fun hlast => ?_
    have hsome : clear.isSome = true := by
      rw [hclear, ← hafterOwner]
      simpa using hbreaking.inside
    obtain ⟨value, rfl⟩ := isSome_iff_exists.mp hsome
    have hparts : value = true ∧ rest.onlyOutputs = true := and_eq_true_iff.mp hlast.1
    exact ⟨congrArg some hparts.1, (hkeep hadv hlast.2).1, houtputs hparts.2⟩

theorem run_normal (hworld : FailsOnly world mayFail) (plan : Plan) (h : loop.Normal)
    (howner : loop.owner = owner) (hclear : clear.isSome = owner.isSome) (hfresh : plan.Fresh owner)
    (hguard : guard → plan.guardedIn mayFail clear = true) :
    Outcome mayFail plan clear guard loop (loop.run world plan.flatten) := by
  induction plan generalizing loop clear owner with
  | done => exact ⟨.refl loop, .inl ⟨h, fun _ => trivial⟩⟩
  | action _ _ ih =>
    refine outcome_ordinary hworld h howner hfresh.of_action rfl
      (if_neg (h.not_passesOver _)) rfl rfl
      (fun _ hrecorded hrest => ⟨hrecorded, hrest⟩) fun loop hnormal howner => ?_
    exact ih hnormal howner hclear hfresh.of_action hguard
  | outputs _ _ ih =>
    refine outcome_ordinary hworld h howner hfresh.of_outputs rfl
      (if_neg (h.not_passesOver _)) rfl rfl
      (fun _ hrecorded hrest => ⟨hrecorded, hrest⟩) fun loop hnormal howner => ?_
    exact ih hnormal howner hclear hfresh.of_outputs hguard
  | composite umbrella body rest ihBody ihRest =>
    have hparts := fun hshape => guardedIn_composite (hguard hshape)
    obtain ⟨_, hentered, hhow⟩ := entered_step world h umbrella
    have hblock : BlockOutcome mayFail umbrella body (lastOf clear rest) guard loop
        (((loop.step world (.compositeStart umbrella)).run world body.flatten).step world
          (.compositeEnd umbrella.stepId)) := by
      rcases hhow with ⟨hskip, _⟩ | ⟨hskip, hframe⟩
      · have hbody := ihBody (normal_entered h hentered hskip) hentered.owner rfl
          hfresh.body_of_composite fun hshape => (hparts hshape).2.1
        refine blockOutcome_entered h hfresh.umbrella_notMem_body hentered
          (fun hshape hframes => (hparts hshape).1 fun hnone => hframes ?_) hbody
        rw [hnone, ← howner] at hclear
        simpa using hclear.symm
      · exact blockOutcome_skipped h hfresh.body_of_composite hentered hskip hframe
    rw [Plan.flatten, run_cons, run_append]
    exact outcome_composite howner hclear hfresh hblock fun hnormal hafterOwner =>
      ihRest hnormal hafterOwner hclear hfresh.rest_of_composite fun hshape =>
        (hparts hshape).2.2

end Guarded

end Loop

/-- Every run over a guarded plan accounts for all of its steps. -/
theorem Plan.accounted_of_guarded {world : World} {mayFail : Str → Bool}
    (hworld : Loop.FailsOnly world mayFail) {plan : Plan} (hids : plan.DistinctIds)
    (hguard : plan.guarded mayFail = true) (state : JobExecutionState) :
    plan.Accounted (executeSteps world state plan.flatten).state.outcomes := by
  have hstart : (Loop.start state).Normal := ⟨rfl, rfl, rfl⟩
  have hout := Loop.run_normal hworld plan hstart rfl rfl hids fun _ : True => hguard
  have hframes : ((Loop.start state).run world plan.flatten).frames = [] := hout.advances.frames
  unfold executeSteps Loop.flush
  rw [hframes]
  rcases hout.mode with ⟨_, hacc⟩ | ⟨hbreaking, _⟩
  · exact hacc trivial
  · exact absurd hframes hbreaking.inside

end Velnor.Executor
