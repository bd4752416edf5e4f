/-
  A closure by worklist: a node taken off the list offers its successors, and
  each one not seen before is recorded with the node that offered it and put on
  the list.

  `mem_seen_closure_iff` is the result: the closure holds exactly the nodes that
  can be reached from those it began with.
-/
import Velnor.Collections.OrderedMap

namespace Collections

open List

universe u

variable {κ : Type u} [LinearOrder κ]

/-- Successors that stay within a finite set. -/
structure Successors (κ : Type u) [LinearOrder κ] where
  next : κ → List κ
  bound : Finset κ
  bounded : ∀ node, ∀ successor ∈ next node, successor ∈ bound

/-- The elements of a set in order, as a tree set is iterated. -/
def inOrder (s : Finset κ) : List κ := s.sort (· ≤ ·)

namespace Worklist

structure State (κ : Type u) [LinearOrder κ] where
  seen : Finset κ
  /-- The node that offered each node found on the way. -/
  origins : OrderedMap κ (Finset κ)
  /-- The next one to be taken is first. -/
  pending : List κ

namespace State

def offer (node : κ) (state : State κ) (successor : κ) : State κ :=
  if successor ∈ state.seen then state
  else
    { seen := insert successor state.seen
      origins := state.origins.insert successor
        (insert node ((state.origins.get? successor).getD ∅))
      pending := successor :: state.pending }

def offerAll (node : κ) (offered : List κ) (state : State κ) : State κ :=
  offered.foldl (offer node) state

/-- What is left to be done: nodes that may still be found, and those found. -/
def work (bound : Finset κ) (state : State κ) : Nat :=
  (bound \ state.seen).card + state.pending.length

theorem work_offer_le {bound : Finset κ} {successor : κ} (h : successor ∈ bound) (node : κ)
    (state : State κ) : (state.offer node successor).work bound ≤ state.work bound := by
  unfold offer
  split
  case isTrue => exact le_refl _
  case isFalse hnew =>
    have hcard : (bound \ insert successor state.seen).card + 1 = (bound \ state.seen).card := by
      rw [Finset.sdiff_insert]
      exact Finset.card_erase_add_one (Finset.mem_sdiff.mpr ⟨h, hnew⟩)
    simp only [work, length_cons]
    omega

theorem work_offerAll_le {bound : Finset κ} {offered : List κ}
    (h : ∀ successor ∈ offered, successor ∈ bound) (node : κ) (state : State κ) :
    (state.offerAll node offered).work bound ≤ state.work bound := by
  induction offered generalizing state with
  | nil => exact le_refl _
  | cons _ _ ih =>
    rw [forall_mem_cons] at h
    exact (ih h.2 _).trans (work_offer_le h.1 node state)

end State

def run (successors : Successors κ) (state : State κ) : State κ :=
  match _h : state.pending with
  | [] => state
  | node :: pending =>
    run successors (State.offerAll node (successors.next node) { state with pending := pending })
termination_by state.work successors.bound
decreasing_by
  refine (State.work_offerAll_le (successors.bounded node) node _).trans_lt ?_
  simp only [State.work, _h, List.length_cons]
  omega

/-! ## What is seen -/

variable {successors : Successors κ}

variable {node : κ}

variable {other : κ} {offered : List κ} (roots : Finset κ) (state : State κ)

theorem mem_seen_offerAll :
    other ∈ (state.offerAll node offered).seen ↔ other ∈ state.seen ∨ other ∈ offered := by
  unfold State.offerAll
  induction offered generalizing state with
  | nil => simp
  | cons _ _ ih =>
    rw [foldl_cons, ih, mem_cons]
    unfold State.offer
    split
    case isTrue hseen =>
      constructor
      · exact fun h => h.imp_right .inr
      rintro (h | rfl | h)
      · exact .inl h
      · exact .inl hseen
      · exact .inr h
    case isFalse =>
      rw [Finset.mem_insert]
      tauto

/-- The nodes that an offer adds wait on the list. -/
theorem mem_pending_offerAll :
    other ∈ (state.offerAll node offered).pending ↔
      other ∈ state.pending ∨ (other ∈ offered ∧ other ∉ state.seen) := by
  unfold State.offerAll
  induction offered generalizing state with
  | nil => simp
  | cons successor _ ih =>
    rw [foldl_cons, ih, mem_cons]
    unfold State.offer
    by_cases hseen : successor ∈ state.seen
    · rw [if_pos hseen]
      refine or_congr_right (and_congr_left fun hnew => ⟨.inr, fun h => h.resolve_left ?_⟩)
      rintro rfl
      exact hnew hseen
    · rw [if_neg hseen]
      by_cases heq : other = successor
      · simp [heq, hseen]
      · simp [heq]

/-- Every node seen waits on the list or has its successors seen. -/
def State.Open (successors : Successors κ) (state : State κ) : Prop :=
  ∀ node ∈ state.seen, node ∈ state.pending ∨ ∀ next ∈ successors.next node, next ∈ state.seen

theorem State.Open.step {state : State κ} {pending : List κ} (h : state.Open successors)
    (hpending : state.pending = node :: pending) :
    (State.offerAll node (successors.next node) { state with pending := pending }).Open
      successors := by
  intro other hother
  rw [mem_seen_offerAll] at hother
  simp only [mem_seen_offerAll, mem_pending_offerAll]
  by_cases hseen : other ∈ state.seen
  · rcases h other hseen with hwaits | hclosed
    · rw [hpending] at hwaits
      rcases mem_cons.mp hwaits with rfl | hwaits
      · exact .inr fun next hnext => .inr hnext
      · exact .inl (.inl hwaits)
    · exact .inr fun next hnext => .inl (hclosed next hnext)
  · exact .inl (.inr ⟨hother.resolve_left hseen, hseen⟩)

theorem seen_subset_run : state.seen ⊆ (run successors state).seen := by
  fun_induction run successors state with
  | case1 => exact Finset.Subset.refl _
  | case2 _ _ _ _ ih =>
    exact fun other hother => ih ((mem_seen_offerAll _).mpr (.inl hother))

theorem run_closed (h : state.Open successors) :
    ∀ node ∈ (run successors state).seen, ∀ next ∈ successors.next node,
      next ∈ (run successors state).seen := by
  fun_induction run successors state with
  | case1 _ hpending =>
    intro node hnode
    refine (h node hnode).resolve_left ?_
    rw [hpending]
    exact not_mem_nil
  | case2 _ _ _ hpending ih => exact ih (h.step hpending)

theorem run_reached (hpending : ∀ node ∈ state.pending, node ∈ state.seen)
    (h : ∀ node ∈ state.seen, ∃ root ∈ roots,
      Relation.ReflTransGen (fun a b => b ∈ successors.next a) root node) :
    ∀ node ∈ (run successors state).seen, ∃ root ∈ roots,
      Relation.ReflTransGen (fun a b => b ∈ successors.next a) root node := by
  fun_induction run successors state with
  | case1 => exact h
  | case2 state node _ hlist ih =>
    have hnode : node ∈ state.seen := hpending node (by rw [hlist]; exact mem_cons_self)
    refine ih (fun other hother => ?_) fun other hother => ?_
    · rw [mem_seen_offerAll]
      rcases (mem_pending_offerAll _).mp hother with hwaits | ⟨hoffered, -⟩
      · exact .inl (hpending other (by rw [hlist]; exact mem_cons_of_mem _ hwaits))
      · exact .inr hoffered
    · rcases (mem_seen_offerAll _).mp hother with hseen | hnext
      · exact h other hseen
      · obtain ⟨root, hroot, hreach⟩ := h node hnode
        exact ⟨root, hroot, hreach.tail hnext⟩

/-- The closure of the roots. -/
def closure (successors : Successors κ) (roots : Finset κ) : State κ :=
  run successors ⟨roots, .empty, (roots.sort (· ≤ ·)).reverse⟩

/-- The closure holds exactly the nodes that can be reached from the roots. -/
theorem mem_seen_closure_iff (node : κ) :
    node ∈ (closure successors roots).seen ↔ ∃ root ∈ roots,
      Relation.ReflTransGen (fun a b => b ∈ successors.next a) root node := by
  have hall : ∀ root ∈ roots, root ∈ (roots.sort (· ≤ ·)).reverse := by simp
  constructor
  · refine run_reached roots _ (fun other hother => ?_) (fun other hother => ?_) node
    · simpa using hother
    · exact ⟨other, hother, .refl⟩
  · rintro ⟨_, hroot, hreach⟩
    induction hreach with
    | refl => exact seen_subset_run _ hroot
    | tail _ hedge ih =>
      exact run_closed _ (fun other hother => .inl (hall other hother)) _ ih _ hedge

end Worklist

end Collections
