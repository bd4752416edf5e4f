/-
  Runs in which every condition has a verdict, every action succeeds and nobody
  cancels.  Whatever is skipped on the way, no composite breaks and no conclusion
  is a failure (`calm_run`).
-/
import Velnor.Executor.Nesting

namespace Velnor.Executor

open Collections JobExecutionState List

/-! ## Runs in which nothing fails -/

/-- Conditions have a verdict, actions succeed and nobody cancels. -/
structure Calm (world : World) : Prop where
  evaluates : ∀ iteration stage state text,
    ∃ verdict, world.evaluate iteration stage state text = .ok verdict
  succeeds : ∀ iteration stage state step,
    ∃ commands, world.execute iteration stage state step = .ok ⟨0, commands⟩
  uncancelled : world.cancelAt = none

theorem Calm.at {world : World} (h : Calm world) (iteration : Nat) : CalmAt world iteration :=
  ⟨h.evaluates iteration, h.succeeds iteration, h.uncancelled⟩

namespace Loop

section Calm

variable {world : World} (hcalm : Calm world) {loop : Loop}
include hcalm

/-- A composite starts with a frame at zero, entered or skipped. -/
theorem calm_start (h : loop.Normal) (umbrella : Umbrella) :
    ∃ frame, Entered umbrella loop (loop.step world (.compositeStart umbrella)) frame ∧
      frame.exitCode = 0 ∧
      ((loop.step world (.compositeStart umbrella)).skipDepth = none ∨
        (loop.step world (.compositeStart umbrella)).skipDepth = some loop.compositeDepth) ∧
      (loop.state.Clean → (loop.step world (.compositeStart umbrella)).state.Clean) := by
  obtain ⟨verdict, hverdict⟩ := (hcalm.at loop.iteration).evaluateCondition
    (loop.state.withStepAction umbrella.stepId) umbrella.condition
  unfold step dispatch openComposite
  simp only [h.counts, Bool.false_eq_true, if_false, hverdict]
  cases verdict with
  | true =>
    exact ⟨_, ⟨rfl, rfl, rfl, rfl, rfl, rfl⟩, rfl, .inl h.skip,
      fun hclean => hclean.pushComposite umbrella.stepId⟩
  | false =>
    exact ⟨_, ⟨rfl, rfl, rfl, rfl, rfl, rfl⟩, rfl, .inr rfl,
      fun hclean => hclean.pushComposite umbrella.stepId⟩

theorem calm_run (plan : Plan) {owner : Option StepId} (hnested : plan.NestedIn owner)
    (h : loop.Normal) : Smooth loop (loop.run world plan.flatten) := by
  induction plan generalizing owner loop with
  | done => exact .refl loop
  | action step _ ih =>
    have hstep : Smooth loop (loop.step world (.action step)) :=
      calm_step (hcalm.at _) (if_neg (h.not_passesOver _))
    exact hstep.trans (ih hnested (hstep.normal h))
  | outputs step _ ih =>
    have hstep : Smooth loop (loop.step world (.compositeOutputs step)) :=
      calm_step (hcalm.at _) (if_neg (h.not_passesOver _))
    exact hstep.trans (ih hnested (hstep.normal h))
  | composite umbrella body _ ihBody ihRest =>
    obtain ⟨-, hbody, hrest⟩ := hnested
    have hblock : Smooth loop (loop.run world (block umbrella body).flatten) := by
      obtain ⟨_, hentered, hzero, hskip, hclean⟩ := calm_start hcalm h umbrella
      rw [run_block]
      rcases hskip with hskip | hskip
      · have hinside := normal_entered h hentered hskip
        have hrun := ihBody hbody hinside
        exact calm_close hcalm.uncancelled h (hrun.frames.trans hentered.frames) hentered.stepId
          hzero
          (hrun.depth.trans hentered.depth) (hrun.broken.trans hentered.unbroken)
          fun hstart => hrun.clean (hclean hstart)
      · rw [run_skipped hbody hentered hskip]
        exact calm_close hcalm.uncancelled h hentered.frames hentered.stepId hzero hentered.depth
          hentered.unbroken hclean
    rw [flatten_composite, run_append]
    exact hblock.trans (ihRest hrest (hblock.normal h))

end Calm

end Loop

end Velnor.Executor
