/-
  A depth-first search that keeps its own stack: an entry asks to enter a node
  or to leave it.  The nodes entered and not left are the way down to the
  current node, so a successor among them closes a cycle.

  The stack is read as frames, one for each node on the way down, with the
  successors of that node still to be entered.  `Invariant` says what the
  frames know, `run_spec` carries it through a run, and `exists_search_eq_ok_iff` is
  the result: the search ends well exactly when no cycle can be reached.
-/
import Velnor.Collections.OrderedMap

namespace Collections

open List

universe u

variable {κ : Type u} [LinearOrder κ]

/-- A graph as the successors of its nodes; a node without an entry has none. -/
abbrev Graph (κ : Type u) [LinearOrder κ] := OrderedMap κ (List κ)

def Graph.Edge (graph : Graph κ) (node successor : κ) : Prop :=
  ∃ successors, graph.get? node = some successors ∧ successor ∈ successors

/-- A cycle can be reached from the node. -/
def Graph.ReachesCycle (graph : Graph κ) (start : κ) : Prop :=
  ∃ node, Relation.ReflTransGen graph.Edge start node ∧ Relation.TransGen graph.Edge node node

namespace CycleSearch

/-! ## The search -/

/-- The stack has its top first; the flag of an entry says that its node is to
    be left. -/
structure State (κ : Type u) where
  stack : List (κ × Bool)
  active : Finset κ
  completed : Finset κ
  /-- The nodes left, without the one the search starts at. -/
  visited : Finset κ

namespace State

def enter (state : State κ) (stack : List (κ × Bool)) (node : κ) (successors : List κ) : State κ :=
  { state with
    stack := (successors.filter (· ∉ state.completed)).map (·, false) ++ (node, true) :: stack
    active := insert node state.active }

def leave (state : State κ) (stack : List (κ × Bool)) (start node : κ) : State κ where
  stack := stack
  active := state.active.erase node
  completed := insert node state.completed
  visited := if node = start then state.visited else insert node state.visited

/-- The nodes with an entry in the graph that were not entered yet. -/
def ahead (graph : Graph κ) (state : State κ) : Finset κ :=
  graph.keys.toFinset \ (state.active ∪ state.completed)

/-- An entry that enters becomes one that leaves. -/
def load (stack : List (κ × Bool)) : Nat := (stack.map fun entry => if entry.2 then 1 else 2).sum

theorem ahead_leave_subset (graph : Graph κ) (state : State κ) (stack : List (κ × Bool))
    (start node : κ) : (state.leave stack start node).ahead graph ⊆ state.ahead graph := by
  refine Finset.sdiff_subset_sdiff (Finset.Subset.refl _) fun other hother => ?_
  simp only [leave, Finset.mem_union, Finset.mem_erase, Finset.mem_insert] at hother ⊢
  by_cases h : other = node
  · exact .inr (.inl h)
  · exact hother.imp (⟨h, ·⟩) .inr

theorem ahead_enter_ssubset {graph : Graph κ} {state : State κ} {node : κ} {successors : List κ}
    (hnode : graph.get? node = some successors) (hactive : node ∉ state.active)
    (hcompleted : node ∉ state.completed) (stack : List (κ × Bool)) :
    (state.enter stack node successors).ahead graph ⊂ state.ahead graph := by
  have hkey : node ∈ graph.keys := OrderedMap.mem_keys_of_get? hnode
  refine Finset.ssubset_iff_subset_ne.mpr ⟨fun other hother => ?_, fun heq => ?_⟩
  · simp only [ahead, enter, Finset.mem_sdiff, Finset.mem_union, Finset.mem_insert] at hother ⊢
    exact ⟨hother.1, fun h => hother.2 (h.imp_left .inr)⟩
  have hbefore : node ∈ state.ahead graph := by
    simp [ahead, hkey, hactive, hcompleted]
  rw [← heq] at hbefore
  simp [ahead, enter] at hbefore

end State

open State in
/-- The loop over the stack.  A node found on the way down to itself ends it. -/
def run (graph : Graph κ) (start : κ) (state : State κ) : Except κ (Finset κ) :=
  match _hstack : state.stack with
  | [] => .ok state.visited
  | (node, true) :: stack => run graph start (state.leave stack start node)
  | (node, false) :: stack =>
    if _hcompleted : node ∈ state.completed then run graph start { state with stack := stack }
    else if _hactive : node ∈ state.active then .error node
    else
      match _hnode : graph.get? node with
      | none => run graph start (state.enter stack node [])
      | some successors =>
        match successors.reverse.find? (· ∈ insert node state.active) with
        | some successor => .error successor
        | none => run graph start (state.enter stack node successors)
termination_by ((state.ahead graph).card, load state.stack)
decreasing_by
  · rw [_hstack]
    refine Prod.Lex.right' _ (Finset.card_le_card (ahead_leave_subset ..)) ?_
    exact Nat.lt_add_of_pos_left Nat.one_pos
  · rw [_hstack]
    exact Prod.Lex.right' _ (le_refl _) (Nat.lt_add_of_pos_left Nat.two_pos)
  · rw [_hstack]
    refine Prod.Lex.right' _ (Finset.card_le_card ?_) ?_
    · refine Finset.sdiff_subset_sdiff (Finset.Subset.refl _) ?_
      exact Finset.union_subset_union (Finset.subset_insert ..) (Finset.Subset.refl _)
    · exact Nat.add_lt_add_right Nat.one_lt_two _
  · exact Prod.Lex.left _ _
      (Finset.card_lt_card (ahead_enter_ssubset _hnode _hactive _hcompleted _))

/-- The nodes other than the first that can be reached, or a node on a cycle. -/
def search (graph : Graph κ) (start : κ) : Except κ (Finset κ) :=
  run graph start ⟨[(start, false)], ∅, ∅, ∅⟩

/-! ## Frames -/

/-- A node on the way down, with its successors that wait to be entered. -/
abbrev Frame (κ : Type u) := κ × List κ

def Frame.entries (frame : Frame κ) : List (κ × Bool) := frame.2.map (·, false) ++ [(frame.1, true)]

/-- The stack of the frames, the innermost first. -/
def entriesOf (frames : List (Frame κ)) : List (κ × Bool) := frames.flatMap Frame.entries

/-- Every successor of a node on the way down was left, waits in the frame, or
    is the next node down. -/
def Covered (graph : Graph κ) (completed : Finset κ) : Option κ → List (Frame κ) → Prop
  | _, [] => True
  | below, frame :: frames =>
    (∀ successor, graph.Edge frame.1 successor →
      successor ∈ completed ∨ successor ∈ frame.2 ∨ below = some successor)
    ∧ Covered graph completed (some frame.1) frames

variable {graph : Graph κ} {start : κ} {frames : List (Frame κ)}

theorem Covered.mono {completed larger : Finset κ} (hsubset : completed ⊆ larger) {below : Option κ}
    (h : Covered graph completed below frames) : Covered graph larger below frames := by
  induction frames generalizing below with
  | nil => trivial
  | cons _ _ ih =>
    exact ⟨fun successor hedge => (h.1 successor hedge).imp_left (@hsubset successor), ih h.2⟩

/-- What the frames know of the graph. -/
structure Invariant (graph : Graph κ) (start : κ) (frames : List (Frame κ)) (state : State κ) :
    Prop where
  stack : state.stack = entriesOf frames
  active : ∀ node, node ∈ state.active ↔ node ∈ frames.map Prod.fst
  nodup : (frames.map Prod.fst).Nodup
  linked : (frames.map Prod.fst).IsChain fun below above => graph.Edge above below
  reached : ∀ node ∈ frames.map Prod.fst, Relation.ReflTransGen graph.Edge start node
  waiting : ∀ frame ∈ frames, ∀ successor ∈ frame.2, graph.Edge frame.1 successor
  covered : Covered graph state.completed none frames
  completed : ∀ node ∈ state.completed, Acc (fun a b => graph.Edge b a) node
  started : start ∈ state.completed ∨ start ∈ state.active

variable {node : κ} {rest : List (Frame κ)} {waiting : List κ}

/-- Every node on the way down leads to the innermost. -/
theorem leads_to_innermost {path : List κ}
    (h : (node :: path).IsChain fun below above => graph.Edge above below) :
    ∀ above ∈ node :: path, Relation.ReflTransGen graph.Edge above node := by
  induction path generalizing node with
  | nil =>
    intro _ habove
    rw [mem_singleton.mp habove]
  | cons _ _ ih =>
    rw [isChain_cons_cons] at h
    intro above habove
    rcases mem_cons.mp habove with rfl | habove
    · exact .refl
    · exact (ih h.2 above habove).tail h.1

/-- A node without cycles ahead is not on one. -/
theorem not_cycle_of_acc (h : Acc (fun a b => graph.Edge b a) node) :
    ¬ Relation.TransGen graph.Edge node node := by
  have htrans : Acc (Relation.TransGen fun a b => graph.Edge b a) node := h.transGen
  intro hcycle
  have hswap : Relation.TransGen (fun a b => graph.Edge b a) node node :=
    Relation.transGen_swap.mpr hcycle
  induction htrans with
  | intro node _ ih => exact ih node hswap (h.inv_of_transGen hswap) hcycle hswap

/-! ## One iteration -/

variable {above : κ} {successor : κ} {stack : List (κ × Bool)}

omit [LinearOrder κ] in
theorem entriesOf_leave (h : (node, true) :: stack = entriesOf frames) :
    ∃ rest, frames = (node, []) :: rest ∧ stack = entriesOf rest := by
  cases frames with
  | nil => cases h
  | cons frame rest =>
    obtain ⟨_, waiting⟩ := frame
    cases waiting with
    | nil =>
      cases h
      exact ⟨rest, rfl, rfl⟩
    | cons => cases h

omit [LinearOrder κ] in
theorem entriesOf_enter (h : (node, false) :: stack = entriesOf frames) :
    ∃ above waiting rest, frames = (above, node :: waiting) :: rest
      ∧ stack = entriesOf ((above, waiting) :: rest) := by
  cases frames with
  | nil => cases h
  | cons frame rest =>
    obtain ⟨above, waiting⟩ := frame
    cases waiting with
    | nil => cases h
    | cons _ waiting =>
      cases h
      exact ⟨above, waiting, rest, rfl, rfl⟩

variable {state : State κ}

theorem Invariant.leave (h : Invariant graph start ((node, []) :: rest) state) :
    Invariant graph start rest (state.leave (entriesOf rest) start node) := by
  have hnodup := nodup_cons.mp h.nodup
  -- nothing waits in the innermost frame, so all its successors were left
  have hacc : Acc (fun a b => graph.Edge b a) node := by
    refine ⟨node, fun successor hedge => ?_⟩
    rcases h.covered.1 successor hedge with hleft | hwaits | hnone
    · exact h.completed successor hleft
    · cases hwaits
    · cases hnone
  constructor
  · rfl
  · intro _
    rw [State.leave, Finset.mem_erase, h.active, map_cons, mem_cons]
    constructor
    · rintro ⟨hne, heq | hother⟩
      · exact absurd heq hne
      · exact hother
    · exact fun hother => ⟨fun heq => hnodup.1 (heq ▸ hother), .inr hother⟩
  · exact hnodup.2
  · exact h.linked.of_cons
  · exact fun other hother => h.reached other (mem_cons_of_mem _ hother)
  · exact fun frame hframe => h.waiting frame (mem_cons_of_mem _ hframe)
  · cases rest with
    | nil => trivial
    | cons =>
      obtain ⟨hframe, hrest⟩ := h.covered.2
      refine ⟨fun successor hedge => ?_, hrest.mono (Finset.subset_insert ..)⟩
      rcases hframe successor hedge with hleft | hwaits | hbelow
      · exact .inl (Finset.mem_insert_of_mem hleft)
      · exact .inr (.inl hwaits)
      · cases hbelow
        exact .inl (Finset.mem_insert_self ..)
  · intro other hother
    rcases Finset.mem_insert.mp hother with rfl | hother
    · exact hacc
    · exact h.completed other hother
  · by_cases hstart : start = node
    · exact .inl (Finset.mem_insert.mpr (.inl hstart))
    · exact h.started.imp (Finset.mem_insert_of_mem) fun hactive =>
        Finset.mem_erase.mpr ⟨hstart, hactive⟩

theorem Invariant.skip (h : Invariant graph start ((above, node :: waiting) :: rest) state)
    (hnode : node ∈ state.completed) :
    Invariant graph start ((above, waiting) :: rest)
      { state with stack := entriesOf ((above, waiting) :: rest) } where
  stack := rfl
  active := h.active
  nodup := h.nodup
  linked := h.linked
  reached := h.reached
  waiting := by
    intro frame hframe successor hsuccessor
    rcases mem_cons.mp hframe with rfl | hframe
    · exact h.waiting _ mem_cons_self successor (mem_cons_of_mem _ hsuccessor)
    · exact h.waiting frame (mem_cons_of_mem _ hframe) successor hsuccessor
  covered := by
    refine ⟨fun successor hedge => ?_, h.covered.2⟩
    rcases h.covered.1 successor hedge with hleft | hwaits | hnone
    · exact .inl hleft
    · rcases mem_cons.mp hwaits with rfl | hwaits
      · exact .inl hnode
      · exact .inr (.inl hwaits)
    · cases hnone
  completed := h.completed
  started := h.started

/-- The successors of a node as the search reads them. -/
def successorsOf (graph : Graph κ) (node : κ) : List κ := (graph.get? node).getD []

theorem edge_iff : graph.Edge node successor ↔ successor ∈ successorsOf graph node := by
  unfold Graph.Edge successorsOf
  cases graph.get? node with
  | none | some successors => simp

/-- A node is entered below the frames, at the top of which it waited. -/
theorem Invariant.enter (h : Invariant graph start ((above, node :: waiting) :: rest) state)
    (hactive : node ∉ state.active) :
    Invariant graph start
      ((node, (successorsOf graph node).filter (· ∉ state.completed)) :: (above, waiting) :: rest)
      (state.enter (entriesOf ((above, waiting) :: rest)) node (successorsOf graph node)) := by
  have hedge : graph.Edge above node := h.waiting _ mem_cons_self node mem_cons_self
  have hnode : node ∉ ((above, waiting) :: rest).map Prod.fst :=
    fun hmem => hactive ((h.active node).mpr hmem)
  constructor
  · simp [State.enter, entriesOf, Frame.entries]
  · intro _
    rw [State.enter, Finset.mem_insert, h.active]
    exact mem_cons.symm
  · exact nodup_cons.mpr ⟨hnode, h.nodup⟩
  · exact isChain_cons_cons.mpr ⟨hedge, h.linked⟩
  · intro other hother
    rcases mem_cons.mp hother with rfl | hother
    · exact (h.reached above mem_cons_self).tail hedge
    · exact h.reached other hother
  · intro frame hframe successor hsuccessor
    rcases mem_cons.mp hframe with rfl | hframe
    · exact edge_iff.mpr (mem_of_mem_filter hsuccessor)
    rcases mem_cons.mp hframe with rfl | hframe
    · exact h.waiting _ mem_cons_self successor (mem_cons_of_mem _ hsuccessor)
    · exact h.waiting frame (mem_cons_of_mem _ hframe) successor hsuccessor
  · refine ⟨fun successor hsuccessor => ?_, fun successor hsuccessor => ?_, h.covered.2⟩
    · by_cases hleft : successor ∈ state.completed
      · exact .inl hleft
      · exact .inr (.inl (mem_filter.mpr ⟨edge_iff.mp hsuccessor, by simpa using hleft⟩))
    · rcases h.covered.1 successor hsuccessor with hleft | hwaits | hnone
      · exact .inl hleft
      · rcases mem_cons.mp hwaits with rfl | hwaits
        · exact .inr (.inr rfl)
        · exact .inr (.inl hwaits)
      · cases hnone
  · exact h.completed
  · exact h.started.imp_right (Finset.mem_insert_of_mem)

/-- A successor on the way down closes a cycle. -/
theorem Invariant.cycle (h : Invariant graph start ((node, waiting) :: rest) state)
    (hedge : graph.Edge node successor) (hactive : successor ∈ state.active) :
    graph.ReachesCycle start := by
  have hmem := (h.active successor).mp hactive
  refine ⟨successor, h.reached successor hmem, ?_⟩
  exact Relation.TransGen.tail' (leads_to_innermost h.linked successor hmem) hedge

/-! ## Runs -/

/-- What the end of a run says. -/
def Tells (graph : Graph κ) (start : κ) : Except κ (Finset κ) → Prop
  | .ok _ => Acc (fun a b => graph.Edge b a) start
  | .error _ => graph.ReachesCycle start

theorem run_spec (state : State κ) (frames : List (Frame κ))
    (h : Invariant graph start frames state) : Tells graph start (run graph start state) := by
  fun_induction run graph start state generalizing frames with
  | case1 _ hstack =>
    cases frames with
    | nil =>
      rcases h.started with hstart | hstart
      · exact h.completed start hstart
      · exact absurd ((h.active start).mp hstart) not_mem_nil
    | cons =>
      have hempty := hstack.symm.trans h.stack
      simp [entriesOf, Frame.entries] at hempty
  | case2 _ _ stack hstack ih =>
    obtain ⟨rest, rfl, rfl⟩ := entriesOf_leave (hstack.symm.trans h.stack)
    exact ih rest h.leave
  | case3 _ _ stack hstack hcompleted ih =>
    obtain ⟨_, _, _, rfl, rfl⟩ := entriesOf_enter (hstack.symm.trans h.stack)
    exact ih _ (h.skip hcompleted)
  | case4 _ node stack hstack _ hactive =>
    obtain ⟨_, waiting, _, rfl, rfl⟩ := entriesOf_enter (hstack.symm.trans h.stack)
    exact h.cycle (h.waiting _ mem_cons_self node mem_cons_self) hactive
  | case5 _ node stack hstack _ hactive hnode ih =>
    obtain ⟨_, _, _, rfl, rfl⟩ := entriesOf_enter (hstack.symm.trans h.stack)
    have hsuccessors : successorsOf graph node = [] := by rw [successorsOf, hnode]; rfl
    exact ih _ (hsuccessors ▸ h.enter hactive)
  | case6 _ _ stack hstack _ hactive successors hnode successor hfind =>
    obtain ⟨_, _, _, rfl, rfl⟩ := entriesOf_enter (hstack.symm.trans h.stack)
    have hmem : successor ∈ successors := mem_reverse.mp (mem_of_find?_eq_some hfind)
    have hbelow := find?_some hfind
    exact (h.enter hactive).cycle ⟨successors, hnode, hmem⟩ (of_decide_eq_true hbelow)
  | case7 _ node stack hstack _ hactive successors hnode _ ih =>
    obtain ⟨_, _, _, rfl, rfl⟩ := entriesOf_enter (hstack.symm.trans h.stack)
    have hsuccessors : successorsOf graph node = successors := by rw [successorsOf, hnode]; rfl
    exact ih _ (hsuccessors ▸ h.enter hactive)

variable (graph start)

/-- The first node is entered. -/
theorem Invariant.first :
    Invariant graph start [(start, (successorsOf graph start).filter (· ∉ (∅ : Finset κ)))]
      (State.enter ⟨[(start, false)], ∅, ∅, ∅⟩ [] start (successorsOf graph start)) where
  stack := by simp [State.enter, entriesOf, Frame.entries]
  active := by simp [State.enter]
  nodup := nodup_singleton start
  linked := List.IsChain.singleton start
  reached := by
    intro _ hnode
    rw [mem_singleton.mp hnode]
  waiting := by
    intro _ hframe _ hsuccessor
    rw [mem_singleton.mp hframe] at hsuccessor ⊢
    exact edge_iff.mpr (mem_of_mem_filter hsuccessor)
  covered := by
    refine ⟨fun successor hedge => .inr (.inl ?_), trivial⟩
    exact mem_filter.mpr ⟨edge_iff.mp hedge, by simp⟩
  completed := fun node hnode => absurd hnode (Finset.notMem_empty node)
  started := .inr (Finset.mem_insert_self ..)

theorem search_spec : Tells graph start (search graph start) := by
  have hfirst := Invariant.first graph start
  unfold search
  rw [run]
  dsimp only
  rw [dif_neg (Finset.notMem_empty start), dif_neg (Finset.notMem_empty start)]
  split
  · rename_i hnode
    have hsuccessors : successorsOf graph start = [] := by rw [successorsOf, hnode]; rfl
    exact run_spec _ _ (hsuccessors ▸ hfirst)
  · rename_i successors hnode
    have hsuccessors : successorsOf graph start = successors := by rw [successorsOf, hnode]; rfl
    split
    · next successor hfind =>
        have hmem := mem_reverse.mp (mem_of_find?_eq_some hfind)
        have hbelow := find?_some hfind
        exact hfirst.cycle ⟨successors, hnode, hmem⟩ (of_decide_eq_true hbelow)
    · exact run_spec _ _ (hsuccessors ▸ hfirst)

/-- The search ends well exactly when no cycle can be reached. -/
theorem exists_search_eq_ok_iff :
    (∃ visited, search graph start = .ok visited) ↔ ¬ graph.ReachesCycle start := by
  have hspec := search_spec graph start
  constructor
  · rintro ⟨_, hok⟩ ⟨_, hreach, hcycle⟩
    rw [hok] at hspec
    refine not_cycle_of_acc ?_ hcycle
    clear hcycle
    induction hreach with
    | refl => exact hspec
    | tail _ hedge ih => exact ih.inv hedge
  · intro hfree
    cases hsearch : search graph start with
    | ok visited => exact ⟨visited, rfl⟩
    | error =>
      rw [hsearch] at hspec
      exact absurd hspec hfree

end CycleSearch

end Collections
