/-
  Advertised capacity and its proof.  Every event keeps a ready slot registered
  and proven by its actor, and a permit keeps the slot's routing with the
  fleet's; but a routing that is found invalid reaches ready slots without
  taking them out of the count.
-/
import Velnor.Control.Journal.Sends

namespace Velnor.Control.Journal

open Rows Relational FleetState

theorem certified_move {s : FleetState} (m : Move) (h : s.Certified) : (move s m).Certified := by
  cases m with
  | apply now event =>
    dsimp only [move]
    split
    · exact h
    · exact (reduce_effects now s event).certified h
  | reduce now event => exact (reduce_effects now s event).certified h
  | settle | mark => exact h

/-- The slots behind the advertised capacity. -/
def FleetState.counted (s : FleetState) : List SlotRecord :=
  if s.capacityInvalid || s.admissionBlocked || s.drainActive then []
  else s.slots.filter fun slot => slot.permitHeld && slot.phase.countsAsReady

theorem FleetState.Certified.counted {s : FleetState} (h : s.Certified) {slot : SlotRecord}
    (hslot : slot ∈ s.counted) : slot.registered = true ∧ slot.readyProof = s.routing := by
  unfold FleetState.counted at hslot
  split at hslot
  · cases hslot
  obtain ⟨hmem, hcounts⟩ := List.mem_filter.mp hslot
  obtain ⟨hpermit, hcounts⟩ := Bool.and_eq_true_iff.mp hcounts
  have hphase : slot.phase = .ready := by
    cases hphase : slot.phase <;> rw [hphase] at hcounts <;> first | rfl | cases hcounts
  obtain ⟨hregistered, hsession, hexecutor⟩ := (h slot hmem).ready hphase
  refine ⟨hregistered, ?_⟩
  rw [SlotRecord.readyProof, hpermit, hsession, hexecutor, (h slot hmem).routed hpermit]
  simp

/-- The capacity a journal advertises is proven exactly while the fleet's routing
    is valid, or while none is advertised. -/
theorem advertised_capacity_proven_iff (moves : List Move) :
    let s := stateAfter moves
    s.advertisedCapacity = UInt32.ofNat s.counted.length
      ∧ ((∀ slot ∈ s.counted, slot.registered = true ∧ slot.readyProof = true)
        ↔ s.routing = true ∨ s.counted = []) := by
  intro s
  have h : s.Certified := run_preserves (fun _ m => certified_move m) nofun moves
  constructor
  · unfold advertisedCapacity FleetState.counted
    split
    · rfl
    · rw [List.countP_eq_length_filter]
  constructor
  · intro hall
    cases hcounted : s.counted with
    | nil => exact .inr rfl
    | cons slot _ =>
      have hslot : slot ∈ s.counted := hcounted ▸ List.mem_cons_self
      exact .inl ((h.counted hslot).2.symm.trans (hall slot hslot).2)
  · rintro (hrouting | hnil) slot hslot
    · obtain ⟨hregistered, hproof⟩ := h.counted hslot
      exact ⟨hregistered, hproof.trans hrouting⟩
    · rw [hnil] at hslot
      cases hslot

/-- A slot made ready, and then the routing is found invalid. -/
theorem advertised_without_routing :
    let now : UnixTime := ⟨0, by decide⟩
    let s := stateAfter (readied now ++ [.apply now (.routing false true)])
    s.advertisedCapacity = 1 ∧ ∃ slot ∈ s.counted, slot.readyProof = false := by
  decide +kernel

end Velnor.Control.Journal
