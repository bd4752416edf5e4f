/-
  Generation fencing.  Every move takes a slot one `SlotMove` on, so over a run
  generations only grow and a fence stands until a newer permit; a batch whose
  events were rejected writes nothing.
-/
import Velnor.Control.Journal.Sends
import Velnor.Control.Journal.Writes

namespace Velnor.Control.Journal

open Rows Relational FleetState

/-- The commands a move releases. -/
def released (s : FleetState) : Move → List SideEffect
  | .apply now event | .reduce now event => (reduce now s event).commands
  | .settle | .mark .. => []

theorem slotMove_move {s : FleetState} (h : Sound s) (k : SlotId) (m : Move) :
    SlotMove ((accepted s m).map Prod.snd) (released s m) k (s.slotMut k)
      ((move s m).slotMut k) := by
  have htaken : ∀ now event, (accepted s (.reduce now event)).map Prod.snd
      = (reduce now s event).taken event := by
    intro now event
    dsimp only [accepted, ReduceOutcome.taken]
    split <;> rfl
  have hreduce : ∀ now event, SlotMove ((accepted s (.reduce now event)).map Prod.snd)
      (reduce now s event).commands k (s.slotMut k) ((reduce now s event).state.slotMut k) :=
    fun now event => htaken now event ▸ (reduce_effects now s event).moves h.tidy k
  cases m with
  | settle | mark => exact .keep nofun
  | reduce now event => exact hreduce now event
  | apply now event =>
    rw [move]
    split
    case isFalse => exact hreduce now event
    case isTrue hr =>
      cases hreduce now event with
      | within _ hfenced => exact .within rfl fun h => ⟨h, rfl, (hfenced h).2.2⟩
      | renewed hpermit =>
        rw [htaken, ReduceOutcome.taken, if_pos hr] at hpermit
        cases hpermit

/-- A batch whose events were all rejected has nothing to write. -/
theorem Taken.unwritten {s : FleetState} {events : List (UnixTime × Event)} {batch : Batch}
    (h : Taken s events batch) (hrejected : ∀ outcome ∈ batch.outcomes, outcome.rejected = true) :
    batch.pending = [] ∧ batch.deactivations = [] := by
  induction h with
  | start => exact ⟨rfl, rfl⟩
  | turn _ hturn ih =>
    cases hturn with
    | rejected => exact ih fun outcome hmem => hrejected outcome (List.mem_append_left _ hmem)
    | accepted _ haccepted =>
      have hlast := hrejected _ (List.mem_append_right _ (List.mem_singleton.mpr rfl))
      rw [haccepted] at hlast
      cases hlast

/-- The slot is fenced at a generation. -/
def FencedAt (s : FleetState) (k : SlotId) (generation : Generation) : Prop :=
  (s.slotMut k).phase = .fenced ∧ (s.slotMut k).generation = generation

/-- The move accepts a permit for a newer generation. -/
def Lifts (s : FleetState) (k : SlotId) (generation : Generation) (m : Move) : Prop :=
  ∃ newer, generation < newer ∧ (accepted s m).map Prod.snd = some (.permitReserved k newer)

/-- Every move keeps a slot within its generation or renews it, generations
    only grow, a fence stands until a permit for a newer generation is accepted,
    and a rejected event is not written. -/
theorem generation_fencing (moves : List Move) (k : SlotId) :
    (∀ m, SlotMove ((accepted (stateAfter moves) m).map Prod.snd) (released (stateAfter moves) m) k
        ((stateAfter moves).slotMut k) ((stateAfter (moves ++ [m])).slotMut k))
      ∧ (∀ later, ((stateAfter moves).slotMut k).generation
        ≤ ((stateAfter (moves ++ later)).slotMut k).generation)
      ∧ (∀ later generation, FencedAt (stateAfter moves) k generation →
        FencedAt (stateAfter (moves ++ later)) k generation
          ∨ ∃ a m b, later = a ++ m :: b ∧ FencedAt (stateAfter (moves ++ a)) k generation
            ∧ Lifts (stateAfter (moves ++ a)) k generation m)
      ∧ (∀ handle pressure batch entry batch', applyEvent handle pressure batch entry = .ok batch' →
        (∀ outcome ∈ batch'.outcomes.getLast?, outcome.rejected = true) →
          { batch' with outcomes := batch.outcomes } = batch)
      ∧ ∀ handle db events outcomes db', applyMany handle db events = .ok (outcomes, db') →
        (∀ outcome ∈ outcomes, outcome.rejected = true) → db' = db := by
  have hsound := sound_run moves
  simp only [stateAfter_append]
  refine ⟨slotMove_move hsound k, fun later => ?_, fun later generation h => ?_, ?_, ?_⟩
  · refine (run_preserves (I := fun s => Sound s
      ∧ ((stateAfter moves).slotMut k).generation ≤ (s.slotMut k).generation)
      (fun s m h => ⟨sound_move m h.1, ?_⟩) ⟨hsound, UInt64.le_refl _⟩ later).2
    cases slotMove_move h.1 k m with
    | within hgen => exact hgen ▸ h.2
    | renewed _ hnewer => exact UInt64.le_trans h.2 (UInt64.le_of_lt hnewer)
  · refine run_until (I := fun s => FencedAt s k generation) (M := fun s => Lifts s k generation)
      (fun _ m => sound_move m) (fun s m hs hfenced => ?_) hsound h later
    cases slotMove_move hs k m with
    | within hgen hstays => exact .inl ⟨(hstays hfenced.1).1, hgen.trans hfenced.2⟩
    | renewed hpermit hnewer => exact .inr ⟨_, hfenced.2 ▸ hnewer, hpermit⟩
  · intro handle pressure batch entry batch' h hrejected
    cases applyEvent_cases h with
    | rejected => rfl
    | accepted _ haccepted =>
      have hlast := hrejected _ List.getLast?_concat
      rw [haccepted] at hlast
      cases hlast
  · intro handle db events outcomes db' h hrejected
    obtain ⟨-, -, rfl⟩ | ⟨_, batch, -, htaken, hcommit⟩ := applyMany_cases h
    · rfl
    obtain ⟨rfl, -⟩ := commitBatch_cases hcommit
    obtain ⟨hpending, hdeactivations⟩ := htaken.unwritten hrejected
    unfold commitBatch at hcommit
    rw [hdeactivations, hpending] at hcommit
    cases hcommit
    rfl

end Velnor.Control.Journal
