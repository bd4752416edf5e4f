/-
  What does not run once `success()` is false.

  A cancelled job stays cancelled, and a failure in the innermost scope stands
  until a step is recorded under the same id or an umbrella converts it.  So a
  plan whose steps have no `if`, and other ids, starts no process
  (`executed_run_of_refuses`).
-/
import Velnor.Executor.Nesting

namespace Velnor.Executor

open Collections JobExecutionState List

/-! ## Standing failures -/

namespace JobExecutionState

/-- The conclusions that `success()` looks at. -/
def scopeConclusions (state : JobExecutionState) : OrderedMap StepId StepOutcome :=
  match state.compositeScopes.frames with
  | [] => state.conclusions
  | frame :: _ => frame.conclusions

/-- A failure of the innermost scope that no ignored umbrella has converted. -/
structure Standing (id : StepId) (state : JobExecutionState) : Prop where
  failed : state.scopeConclusions.get? id = some .failure
  stands : id ∉ state.compositeScopes.converted

variable {state : JobExecutionState} {id stepId : StepId}

theorem scopeHasFailure_iff :
    state.compositeScopes.scopeHasFailure state.conclusions = true ↔ ∃ id, Standing id state := by
  have hscan : state.compositeScopes.scopeHasFailure state.conclusions
      = state.compositeScopes.hasFailure state.scopeConclusions := by
    unfold CompositeConclusionScopes.scopeHasFailure scopeConclusions
    cases state.compositeScopes.frames <;> rfl
  rw [hscan, CompositeConclusionScopes.hasFailure, any_eq_true]
  constructor
  · rintro ⟨⟨id, _⟩, hentry, hfailed⟩
    simp only [Bool.and_eq_true, decide_eq_true_eq] at hfailed
    exact ⟨id, (OrderedMap.mem_entries_iff _).mp (hfailed.1 ▸ hentry), hfailed.2⟩
  · rintro ⟨id, hid⟩
    exact ⟨(id, .failure), (OrderedMap.mem_entries_iff _).mpr hid.failed, by simp [hid.stands]⟩

theorem Throughout.scopeConclusions {p : StepId → StepOutcome → Prop} (h : state.Throughout p) :
    Concludes p state.scopeConclusions := by
  unfold JobExecutionState.scopeConclusions
  split
  · exact h.job
  · rename_i frame _ heq
    exact h.scopes frame (heq ▸ mem_cons_self)

/-- A record under another id leaves the failure standing. -/
theorem Standing.record (h : Standing id state) (hne : id ≠ stepId)
    (outcome conclusion : StepOutcome) :
    Standing id (state.recordOutcome stepId outcome conclusion) := by
  obtain ⟨hfailed, hstands⟩ := h
  unfold JobExecutionState.scopeConclusions at hfailed
  cases hframes : state.compositeScopes.frames with
  | nil | cons =>
    rw [hframes] at hfailed
    constructor
    · simp only [JobExecutionState.scopeConclusions, recordOutcome,
        CompositeConclusionScopes.record, hframes, OrderedMap.get?_insert_of_ne _ _ hne, hfailed]
    · simp only [recordOutcome, CompositeConclusionScopes.record, hframes, hstands, not_false_iff]

theorem Standing.apply (h : Standing id state) (hne : id ≠ stepId) (result : StepExecutionResult) :
    Standing id (state.apply stepId result) :=
  have hrecorded := h.record hne (outcomeOf result) (conclusionOf result)
  ⟨hrecorded.failed, hrecorded.stands⟩

/-- A scope in which nothing was recorded leaves no trace. -/
theorem popComposite_pushComposite (state : JobExecutionState) (stepId : StepId) :
    ((state.pushComposite stepId).popComposite stepId).1 = state := by
  have hscopes : ((state.compositeScopes.push stepId).pop stepId).1 = state.compositeScopes := by
    obtain ⟨converted, frames⟩ := state.compositeScopes
    cases frames <;> simp [CompositeConclusionScopes.push, CompositeConclusionScopes.pop,
      OrderedMap.keys, OrderedMap.empty]
  exact congrArg (fun scopes => { state with compositeScopes := scopes }) hscopes

end JobExecutionState

namespace Loop

variable {world : World} {loop : Loop} {umbrella : Umbrella} {body : Plan}

/-! ## What a step records -/

/-- What records under the step's id and its command state keep, the step keeps. -/
theorem state_runOrdinary {P : JobExecutionState → Prop} {step : OrdinaryStep}
    (hrecord : ∀ state outcome conclusion, P state →
      P (state.recordOutcome step.stepId outcome conclusion))
    (hmerge : ∀ state command, P state → P (state.mergeCommandState step.stepId command))
    (world : World) (loop : Loop) (h : P loop.state) : P (loop.runOrdinary world step).state := by
  have happly : ∀ state result, P state → P (state.apply step.stepId result) :=
    fun state _ hstate => hmerge _ _ (hrecord state _ _ hstate)
  have habsorbed : ∀ (loop : Loop) result, P loop.state →
      P ((loop.absorb result).record step.stepId result).state := fun loop result hstate =>
    happly _ result (loop.state_absorb result ▸ hstate)
  have hthrew : ∀ (loop : Loop) (cancelled : Bool) result, P loop.state →
      P (if cancelled then (loop.absorb result).recordCancelled step.stepId result
        else (loop.absorb result).record step.stepId result).state := by
    intro loop cancelled result hstate
    cases cancelled with
    | true => exact hrecord _ _ _ (habsorbed loop result hstate)
    | false => exact habsorbed loop result hstate
  have hmark : ∀ loop : Loop, (loop.markExecuted step).state = loop.state := by
    intro loop
    unfold markExecuted
    split <;> rfl
  have hmain : ∀ loop : Loop, P loop.state → P (loop.runMain world step).state := by
    intro loop hstate
    unfold runMain
    split <;> rw [hmark]
    · exact habsorbed loop _ hstate
    · exact hthrew loop _ _ hstate
  unfold runOrdinary
  split
  · exact habsorbed loop failed h
  · exact happly _ _ h
  unfold runStages
  split
  · exact hmain loop h
  split
  · exact habsorbed loop failed h
  · exact hmain loop h
  have hpre : P (loop.runPre world step).1.state := by
    unfold runPre
    split <;> rw [hmark]
    · exact habsorbed loop _ h
    · exact hthrew loop _ _ h
  dsimp only
  split
  · exact hmain _ hpre
  · exact hpre

section Throughout

variable {p : StepId → StepOutcome → Prop}

theorem throughout_runOrdinary {step : OrdinaryStep} (hp : ∀ conclusion, p step.stepId conclusion)
    (world : World) (h : loop.state.Throughout p) :
    (loop.runOrdinary world step).state.Throughout p :=
  state_runOrdinary (fun _ outcome _ hstate => hstate.record outcome (hp _))
    (fun _ _ hstate => ⟨hstate.job, hstate.scopes⟩) world loop h

theorem throughout_close {stepId : StepId} (hp : ∀ conclusion, p stepId conclusion) (world : World)
    (h : loop.state.Throughout p) : (loop.close world stepId).state.Throughout p := by
  have hpopped := h.popComposite stepId
  unfold close
  cases loop.frames with
  | nil => exact hpopped
  | cons frame =>
    have hrecorded := hpopped.apply stepId
      (hp (conclusionOf (frame.umbrellaResult (world.cancelled loop.iteration .close))))
    unfold popFrame
    dsimp only
    split
    · exact ⟨hrecorded.job, hrecorded.scopes⟩
    · exact hrecorded

theorem throughout_start (world : World) (umbrella : Umbrella) (h : loop.state.Throughout p) :
    (loop.step world (.compositeStart umbrella)).state.Throughout p := by
  show (loop.openComposite world umbrella).state.Throughout p
  unfold openComposite
  split
  · exact h
  dsimp only
  split <;> exact h.pushComposite umbrella.stepId

/-- A plan records under its own ids only. -/
theorem throughout_run (world : World) (plan : Plan)
    (hp : ∀ id ∈ plan.ids, ∀ conclusion, p id conclusion) (h : loop.state.Throughout p) :
    (loop.run world plan.flatten).state.Throughout p := by
  induction plan generalizing loop with
  | done => exact h
  | action step _ ih | outputs step _ ih =>
    rw [Plan.ids, forall_mem_cons] at hp
    refine ih hp.2 ?_
    unfold Loop.step dispatch
    dsimp only
    split
    · exact h
    · exact throughout_runOrdinary hp.1 world h
  | composite umbrella body _ ihBody ihRest =>
    rw [Plan.ids, forall_mem_cons, forall_mem_append] at hp
    have hend : ∀ last : Loop, last.state.Throughout p →
        (last.step world (.compositeEnd umbrella.stepId)).state.Throughout p := by
      intro last hlast
      show (last.closeComposite world umbrella.stepId).state.Throughout p
      unfold closeComposite
      dsimp only
      split
      · exact hlast
      · exact throughout_close hp.1 world hlast
    rw [Plan.flatten, run_cons, run_append, run_cons]
    exact ihRest hp.2.2 (hend _ (ihBody hp.2.1 (throughout_start world umbrella h)))

end Throughout

/-! ## Where `success()` is false -/

/-- `success()` is false, and records under `ids` do not change that. -/
def Refuses (world : World) (ids : List StepId) (loop : Loop) : Prop :=
  world.cancelled loop.iteration .condition = true ∨ ∃ id, id ∉ ids ∧ Standing id loop.state

section Refuses

variable {ids : List StepId} {condition : Option Str}

theorem Refuses.verdict (h : loop.Refuses world ids) (hcondition : conditionText condition = none)
    (stepId : StepId) :
    world.evaluateCondition loop.iteration (loop.state.withStepAction stepId) condition
      = .ok false := by
  unfold World.evaluateCondition
  rw [hcondition]
  refine congrArg Except.ok ?_
  show (!world.cancelled loop.iteration .condition
    && !loop.state.compositeScopes.scopeHasFailure loop.state.conclusions) = false
  rcases h with hcancelled | ⟨id, -, hid⟩
  · rw [hcancelled]
    rfl
  · rw [scopeHasFailure_iff.mpr ⟨id, hid⟩, Bool.not_true, Bool.and_false]

/-- The other way round: what stands was recorded before, under other ids. -/
theorem refuses_of_verdict {recorded : List StepId}
    (hrecorded : loop.state.Throughout fun id _ => id ∈ recorded)
    (hids : ∀ id ∈ ids, id ∉ recorded) (hcondition : conditionText condition = none)
    {stepId : StepId}
    (hverdict : world.evaluateCondition loop.iteration (loop.state.withStepAction stepId) condition
      ≠ .ok true) : loop.Refuses world ids := by
  unfold World.evaluateCondition at hverdict
  rw [hcondition] at hverdict
  have hstatus : (!world.cancelled loop.iteration .condition
      && !loop.state.compositeScopes.scopeHasFailure loop.state.conclusions) = false :=
    Bool.eq_false_iff.mpr fun htrue => hverdict (congrArg Except.ok htrue)
  rcases Bool.and_eq_false_iff.mp hstatus with hcancelled | hfailure
  · exact .inl (by simpa using hcancelled)
  · obtain ⟨id, hid⟩ := scopeHasFailure_iff.mp (by simpa using hfailure)
    exact .inr ⟨id, fun hmem => hids id hmem (hrecorded.scopeConclusions id _ hid.failed), hid⟩

/-- Later, with the standing failures of other ids kept. -/
theorem Refuses.later {after : Loop} {rest : List StepId} (h : loop.Refuses world ids)
    (hiteration : loop.iteration ≤ after.iteration) (hrest : ∀ id ∈ rest, id ∈ ids)
    (hkept : ∀ id ∉ ids, Standing id loop.state → Standing id after.state) :
    after.Refuses world rest := by
  rcases h with hcancelled | ⟨id, hid, hstanding⟩
  · refine .inl ?_
    unfold World.cancelled at hcancelled ⊢
    obtain ⟨moment, hmoment, hle⟩ := (Option.any_eq_true _ _).mp hcancelled
    refine (Option.any_eq_true _ _).mpr ⟨moment, hmoment, decide_eq_true ?_⟩
    have := of_decide_eq_true hle
    omega
  · exact .inr ⟨id, fun hmem => hid (hrest id hmem), hkept id hid hstanding⟩

end Refuses

/-- A composite whose condition is false is recorded as skipped. -/
theorem state_block_refused (h : loop.Normal) (hbody : body.NestedIn (some umbrella.stepId))
    (hverdict : world.evaluateCondition loop.iteration (loop.state.withStepAction umbrella.stepId)
      umbrella.condition = .ok false) :
    (loop.run world (block umbrella body).flatten).state
      = loop.state.apply umbrella.stepId ⟨0, {}, true, false⟩ := by
  have hopen : loop.step world (.compositeStart umbrella) = { loop with
      iteration := loop.iteration + 1
      state := loop.state.pushComposite umbrella.stepId
      frames := ⟨umbrella.stepId, 0, true, umbrella.continueOnError, false, loop.results.length⟩
        :: loop.frames
      compositeDepth := loop.compositeDepth + 1
      skipDepth := some loop.compositeDepth } := by
    unfold step dispatch openComposite
    simp only [h.counts, hverdict]
    rfl
  have hentered : Entered umbrella loop (loop.step world (.compositeStart umbrella))
      ⟨umbrella.stepId, 0, true, umbrella.continueOnError, false, loop.results.length⟩ := by
    rw [hopen]
    exact ⟨rfl, rfl, rfl, rfl, rfl, rfl⟩
  rw [run_block, run_skipped hbody hentered (by rw [hopen])]
  generalize loop.step world (.compositeStart umbrella) = inside at hentered hopen
  have hframes : (inside.later body.flatten.length).frames = _ := hentered.frames
  change (closeComposite world _ umbrella.stepId).state = _
  rw [closeComposite_active world hframes hentered.stepId, hopen]
  show ((loop.state.pushComposite umbrella.stepId).popComposite umbrella.stepId).1.apply _ _ = _
  rw [popComposite_pushComposite]
  rfl

end Loop

namespace Plan

/-- No step of the plan has an `if` of its own; the steps inside a composite are
    behind that of the composite. -/
def meek : Plan → Bool
  | done => true
  | action step rest => (conditionText step.condition).isNone && rest.meek
  | outputs _ rest => rest.meek
  | composite umbrella _ rest => (conditionText umbrella.condition).isNone && rest.meek

end Plan

namespace Loop

variable {world : World} {loop : Loop} {owner : Option StepId}

/-- A plan without an `if` starts no process where `success()` is false. -/
theorem executed_run_of_refuses (plan : Plan) (hmeek : plan.meek = true)
    (hnested : plan.NestedIn owner) (h : loop.Steady owner)
    (hrefuses : loop.Refuses world plan.ids) :
    (loop.run world plan.flatten).executed = loop.executed := by
  induction plan generalizing loop with
  | done => rfl
  | action step rest ih =>
    rcases h.mode with hnormal | hbreaking
    · obtain ⟨hcondition, hrest⟩ := Bool.and_eq_true_iff.mp hmeek
      have hverdict := hrefuses.verdict (Option.isNone_iff_eq_none.mp hcondition) step.stepId
      have hdispatch : loop.dispatch world (.action step) = loop.runOrdinary world step.ordinary :=
        if_neg (hnormal.not_passesOver _)
      have hskipped : loop.step world (.action step)
          = { loop.record step.stepId skippedResult with iteration := loop.iteration + 1 } := by
        rw [step_of_dispatch _ hdispatch, runOrdinary]
        simp only [show step.ordinary.stepId = step.stepId from rfl,
          show step.ordinary.condition = step.condition from rfl, hverdict]
      have hsteady := (keeps_ordinary hnormal h.owner hdispatch).steady
      rw [Plan.flatten, run_cons]
      rw [hskipped] at hsteady ⊢
      refine ih hrest hnested hsteady (hrefuses.later (Nat.le_succ _) ?_ ?_)
      · exact fun id => mem_cons_of_mem _
      · exact fun id hid hstanding => hstanding.apply (fun heq => hid (heq ▸ mem_cons_self)) _
    · exact ((run_steady _ hnested h).broken hbreaking).2
  | outputs step rest ih =>
    rcases h.mode with hnormal | hbreaking
    · have hdispatch : loop.dispatch world (.compositeOutputs step)
          = loop.runOrdinary world step.ordinary := if_neg (hnormal.not_passesOver _)
      have hsteady := (keeps_ordinary hnormal h.owner hdispatch).steady
      rw [Plan.flatten, run_cons, ← loop.executed_step_outputs world step]
      refine ih hmeek hnested hsteady (hrefuses.later (Nat.le_succ _) ?_ ?_)
      · exact fun id => mem_cons_of_mem _
      · intro id hid hstanding
        rw [step_of_dispatch _ hdispatch]
        refine state_runOrdinary (fun _ outcome conclusion hstate => ?_)
          (fun _ _ hstate => ⟨hstate.failed, hstate.stands⟩) world loop hstanding
        exact hstate.record (fun heq => hid (heq ▸ mem_cons_self)) outcome conclusion
    · exact ((run_steady _ hnested h).broken hbreaking).2
  | composite umbrella body rest _ ihRest =>
    rcases h.mode with hnormal | hbreaking
    · obtain ⟨hcondition, hrest⟩ := Bool.and_eq_true_iff.mp hmeek
      have hverdict := hrefuses.verdict (Option.isNone_iff_eq_none.mp hcondition) umbrella.stepId
      have hblock : (block umbrella body).NestedIn owner := ⟨hnested.1, hnested.2.1, trivial⟩
      have hnone : (loop.run world (block umbrella body).flatten).executed = loop.executed := by
        by_contra hran
        cases (verdict_of_executed h hblock hran).symm.trans hverdict
      rw [flatten_composite, run_append, ← hnone]
      refine ihRest hrest hnested.2.2 (run_steady _ hblock h).steady (hrefuses.later ?_ ?_ ?_)
      · rw [iteration_run]
        exact Nat.le_add_right _ _
      · exact fun id hid => mem_cons_of_mem _ (mem_append_right _ hid)
      · intro id hid hstanding
        rw [state_block_refused hnormal hnested.2.1 hverdict]
        exact hstanding.apply (fun heq => hid (heq ▸ mem_cons_self)) _
    · exact ((run_steady _ hnested h).broken hbreaking).2

end Loop

end Velnor.Executor
