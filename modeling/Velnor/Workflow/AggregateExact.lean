/-
  When the required check is green.  A failure line comes from the plan's
  marker, from two reports of one item, from an item or from a walk over the
  prerequisites; each source is silent under a condition of its own, and
  together these are `Green`.

  The walk adds a line for a unit that did not pass only where an item has
  added one, so behind silent items it is silent exactly without cycles.
-/
import Velnor.Workflow.Aggregate

namespace Velnor.Workflow

open Collections List OrderedMap Scores

/-! ## What is expected -/

/-- The unit must report the matrix entry. -/
def ExpectedUnit.Expects (unit : ExpectedUnit) (entry : Option Str) : Prop :=
  entry ∈ effectiveEntries unit.matrix

/-- A success, or a skip that the planner has recorded. -/
def ExpectedUnit.Accepts (unit : ExpectedUnit) (outcome : ReportedOutcome) : Prop :=
  outcome = .success ∨ (∃ reason, outcome = .skipped reason) ∧ unit.plannedSkip.isSome

/-- What a green check rests on. -/
structure Green (expected : ExpectedWork) (results : List ReportedResult)
    (prerequisites : Prerequisites) : Prop where
  marker : expected.plannedNoWork = true ↔ expected.units.entries = []
  once : (results.map ReportedResult.item).Nodup
  lanes : ∀ unitId unit, expected.units.get? unitId = some unit → unit.lanes.Nonempty
  reported : ∀ unitId unit, expected.units.get? unitId = some unit →
    ∀ lane ∈ unit.lanes, ∀ entry, unit.Expects entry →
      ∃ result ∈ results, result.unitId = unitId ∧ result.lane = lane
        ∧ result.matrixEntry = entry ∧ unit.Accepts result.outcome
  acyclic : ∀ unitId unit, expected.units.get? unitId = some unit →
    ¬ Graph.ReachesCycle prerequisites unitId

/-! ## Items -/

variable {unitId : Str} {scores : Scores}

theorem workItem_inj {lane unitId' lane' : Str} {entry entry' : Option Str} :
    workItem unitId lane entry = workItem unitId' lane' entry' ↔
      unitId = unitId' ∧ lane = lane' ∧ entry = entry' := by
  constructor
  · intro h
    cases h
    exact ⟨rfl, rfl, rfl⟩
  · rintro ⟨rfl, rfl, rfl⟩
    rfl

theorem scoreExpectedItem_failed (unitId : Str) (unit : ExpectedUnit) (lane : Str)
    (entry : Option Str) (report : Option ReportedResult) :
    (scoreExpectedItem unitId unit lane entry report).failed =
      (scoreExpectedItem unitId unit lane entry report).failure.isSome := by
  unfold scoreExpectedItem
  repeat' split
  all_goals rfl

variable {turns : List Turn} {unit : ExpectedUnit} (results : List ReportedResult)
    (prerequisites : Prerequisites)

theorem scoreExpectedItem_failure {lane : Str} {entry : Option Str}
    {report : Option ReportedResult} :
    (scoreExpectedItem unitId unit lane entry report).failure = none ↔
      ∃ result, report = some result ∧ unit.Accepts result.outcome := by
  cases report with
  | none => exact iff_of_false nofun nofun
  | some result =>
    simp only [Option.some.injEq, exists_eq_left', ExpectedUnit.Accepts]
    unfold scoreExpectedItem
    dsimp only
    cases result.outcome with
    | success =>
      refine iff_of_true ?_ (.inl rfl)
      cases result.reusedFrom <;> rfl
    | failure => exact iff_of_false nofun nofun
    | skipped reason =>
      cases unit.plannedSkip with
      | none => exact iff_of_false nofun nofun
      | some => exact iff_of_true rfl (.inr ⟨⟨reason, rfl⟩, rfl⟩)
    | cancelled => exact iff_of_false nofun nofun

/-! ## The index of the reports -/

variable (indexed : ResultIndex × List Str)

section Index

variable {results} {item : WorkItem} {result : ReportedResult}

theorem get?_indexResult_foldl {indexed : ResultIndex × List Str}
    (h : (results.foldl indexResult indexed).1.get? item = some result) :
    (result ∈ results ∧ result.item = item) ∨ indexed.1.get? item = some result := by
  induction results generalizing indexed with
  | nil => exact .inr h
  | cons _ _ ih =>
    rcases ih h with ⟨hmem, hitem⟩ | hget
    · exact .inl ⟨mem_cons_of_mem _ hmem, hitem⟩
    rw [indexResult, get?_insert] at hget
    split at hget
    case isTrue heq =>
      cases hget
      exact .inl ⟨mem_cons_self, heq.symm⟩
    case isFalse => exact .inr hget

theorem isSome_get?_indexResult_foldl
    (h : item ∈ results.map ReportedResult.item ∨ (indexed.1.get? item).isSome) :
    ((results.foldl indexResult indexed).1.get? item).isSome := by
  induction results generalizing indexed with
  | nil => exact h.resolve_left not_mem_nil
  | cons first _ ih =>
    refine ih (indexResult indexed first) ?_
    rw [indexResult, get?_insert]
    by_cases heq : item = first.item
    · exact .inr (by rw [if_pos heq]; rfl)
    · rw [if_neg heq]
      exact h.imp_left fun hmem => (mem_cons.mp hmem).resolve_left heq

theorem duplicates_foldl_eq_nil_iff :
    (results.foldl indexResult indexed).2 = [] ↔
      indexed.2 = [] ∧ (results.map ReportedResult.item).Nodup
        ∧ ∀ result ∈ results, indexed.1.get? result.item = none := by
  induction results generalizing indexed with
  | nil => simp
  | cons first results ih =>
    rw [foldl_cons, ih, map_cons, nodup_cons, forall_mem_cons]
    have hline : (indexResult indexed first).2 = [] ↔
        indexed.2 = [] ∧ indexed.1.get? first.item = none := by
      rw [indexResult]
      split
      case isTrue hsome => simp [Option.isSome_iff_ne_none.mp hsome]
      case isFalse hnone =>
        rw [Option.not_isSome_iff_eq_none.mp hnone]
        simp
    have hother : (∀ result ∈ results, (indexResult indexed first).1.get? result.item = none) ↔
        first.item ∉ results.map ReportedResult.item
          ∧ ∀ result ∈ results, indexed.1.get? result.item = none := by
      constructor
      · intro h
        refine ⟨fun hmem => ?_, fun result hmem => ?_⟩
        · obtain ⟨result, hresult, heq⟩ := mem_map.mp hmem
          have hnone := h result hresult
          rw [indexResult, get?_insert, if_pos heq] at hnone
          cases hnone
        · have hnone := h result hmem
          rw [indexResult, get?_insert] at hnone
          split at hnone
          case isTrue => cases hnone
          case isFalse => exact hnone
      · rintro ⟨hfirst, hnone⟩ result hmem
        have hne : result.item ≠ first.item := fun heq => hfirst (mem_map.mpr ⟨result, hmem, heq⟩)
        rw [indexResult, get?_insert, if_neg hne]
        exact hnone result hmem
    tauto

theorem duplicates_eq_nil_iff :
    (indexResults results).2 = [] ↔ (results.map ReportedResult.item).Nodup := by
  rw [indexResults, duplicates_foldl_eq_nil_iff]
  simp [empty, get?]

/-- With one report for each item, a read of the index finds the report. -/
theorem get?_indexResults_iff (honce : (results.map ReportedResult.item).Nodup) :
    (indexResults results).1.get? item = some result ↔ result ∈ results ∧ result.item = item := by
  constructor
  · intro h
    exact (get?_indexResult_foldl h).resolve_right nofun
  rintro ⟨hmem, rfl⟩
  have hsome : ((indexResults results).1.get? result.item).isSome :=
    isSome_get?_indexResult_foldl _ (.inl (mem_map_of_mem hmem))
  obtain ⟨_, hfound⟩ := Option.isSome_iff_exists.mp hsome
  obtain ⟨hmem', hitem⟩ := (get?_indexResult_foldl hfound).resolve_right nofun
  rw [hfound, inj_on_of_nodup_map honce hmem' hmem hitem]

end Index

/-! ## The loop over the items -/

def Turn.key : Turn → Option WorkItem
  | .noLanes _ => none
  | .item unitId _ lane entry => some (workItem unitId lane entry)

/-- The turn adds no failure line. -/
def Turn.Silent (index : ResultIndex) : Turn → Prop
  | .noLanes _ => False
  | .item unitId unit lane entry =>
    ∃ result, index.get? (workItem unitId lane entry) = some result ∧ unit.Accepts result.outcome

theorem Scores.turn_failures_eq_nil_iff {turn : Turn} :
    (scores.turn turn).failures = [] ↔ scores.failures = [] ∧ turn.Silent scores.index := by
  cases turn with
  | noLanes => simp [turn, Turn.Silent]
  | item =>
    rw [turn, Turn.Silent]
    rw [append_eq_nil_iff, Option.toList_eq_nil_iff, scoreExpectedItem_failure]

/-- A turn leaves the other items of the index. -/
theorem Turn.silent_turn_iff {turn other : Turn} (h : ∀ item ∈ turn.key, item ∉ other.key) :
    other.Silent (scores.turn turn).index ↔ other.Silent scores.index := by
  cases other with
  | noLanes => exact Iff.rfl
  | item unitId _ lane entry =>
    cases turn with
    | noLanes => exact Iff.rfl
    | item unitId' _ lane' entry' =>
      have hne : workItem unitId lane entry ≠ workItem unitId' lane' entry' :=
        fun heq => h _ rfl (congrArg some heq)
      rw [Turn.Silent, Turn.Silent, turn]
      rw [get?_erase, if_neg hne]

theorem failures_foldl_eq_nil_iff (hkeys : (turns.filterMap Turn.key).Nodup) (scores : Scores) :
    (turns.foldl turn scores).failures = [] ↔
      scores.failures = [] ∧ ∀ turn ∈ turns, turn.Silent scores.index := by
  induction turns generalizing scores with
  | nil => simp
  | cons turn turns ih =>
    have hrest : (turns.filterMap Turn.key).Nodup := by
      cases hkey : turn.key with
      | none => rwa [filterMap_cons_none hkey] at hkeys
      | some =>
        rw [filterMap_cons_some hkey] at hkeys
        exact (nodup_cons.mp hkeys).2
    have hother : ∀ other ∈ turns, ∀ item ∈ turn.key, item ∉ other.key := by
      intro other hmem _ hitem hsame
      rw [filterMap_cons_some hitem] at hkeys
      exact (nodup_cons.mp hkeys).1 (mem_filterMap.mpr ⟨other, hmem, hsame⟩)
    rw [foldl_cons, ih hrest, turn_failures_eq_nil_iff, forall_mem_cons, and_assoc]
    refine and_congr_right fun _ => and_congr_right fun _ => ?_
    exact forall₂_congr fun other hmem => Turn.silent_turn_iff (hother other hmem)

/-- A unit is marked as failed only together with a failure line. -/
theorem failedUnits_foldl_eq_empty (hstart : scores.failures = [] → scores.failedUnits = ∅)
    (h : (turns.foldl turn scores).failures = []) : (turns.foldl turn scores).failedUnits = ∅ := by
  induction turns generalizing scores with
  | nil => exact hstart h
  | cons turn _ ih =>
    refine ih (fun hfailures => ?_) h
    have hbefore := (turn_failures_eq_nil_iff.mp hfailures).1
    cases turn with
    | noLanes => simp [turn] at hfailures
    | item =>
      rw [turn] at hfailures ⊢
      rw [hbefore, nil_append, Option.toList_eq_nil_iff] at hfailures
      rw [scoreExpectedItem_failed, hfailures, if_neg (by simp), hstart hbefore]

/-! ## The turns of a plan -/

theorem effectiveEntries_nodup (matrix : Finset Str) : (effectiveEntries matrix).Nodup := by
  unfold effectiveEntries
  split
  · exact nodup_singleton none
  · exact (matrix.sort_nodup _).map (Option.some_injective _)

theorem mem_filterMap_turnsOf {item : WorkItem}
    (h : item ∈ (turnsOf unitId unit).filterMap Turn.key) :
    ∃ lane entry, item = workItem unitId lane entry := by
  obtain ⟨_, hturn, hkey⟩ := mem_filterMap.mp h
  unfold turnsOf at hturn
  split at hturn
  · rw [mem_singleton.mp hturn] at hkey
    cases hkey
  obtain ⟨lane, -, hturn⟩ := mem_flatMap.mp hturn
  obtain ⟨entry, -, rfl⟩ := mem_map.mp hturn
  cases hkey
  exact ⟨lane, entry, rfl⟩

theorem turnsOf_keys_nodup (unitId : Str) (unit : ExpectedUnit) :
    ((turnsOf unitId unit).filterMap Turn.key).Nodup := by
  unfold turnsOf
  split
  · exact nodup_nil
  rw [filterMap_flatMap, nodup_flatMap]
  have hkeys : ∀ lane, ((effectiveEntries unit.matrix).map (Turn.item unitId unit lane)).filterMap
      Turn.key = (effectiveEntries unit.matrix).map (workItem unitId lane) := by
    intro _
    rw [filterMap_map, ← filterMap_eq_map]
    rfl
  constructor
  · intro _ _
    rw [hkeys]
    exact (effectiveEntries_nodup unit.matrix).map fun _ _ h => (workItem_inj.mp h).2.2
  · refine (unit.lanes.sort_nodup _).imp fun {lane lane'} hne => ?_
    dsimp only [Function.onFun]
    rw [hkeys, hkeys]
    intro _ hitem hitem'
    obtain ⟨_, -, rfl⟩ := mem_map.mp hitem
    obtain ⟨_, -, heq⟩ := mem_map.mp hitem'
    exact hne (workItem_inj.mp heq).2.1.symm

variable (expected : ExpectedWork)

theorem ExpectedWork.turns_keys_nodup : (expected.turns.filterMap Turn.key).Nodup := by
  unfold turns
  rw [filterMap_flatMap, nodup_flatMap]
  refine ⟨fun entry _ => turnsOf_keys_nodup entry.1 entry.2, ?_⟩
  refine expected.units.sorted.imp fun {a b} hlt => ?_
  intro _ ha hb
  obtain ⟨_, _, rfl⟩ := mem_filterMap_turnsOf ha
  obtain ⟨_, _, heq⟩ := mem_filterMap_turnsOf hb
  exact hlt.ne (workItem_inj.mp heq).1

/-- Every turn of a plan is silent when every unit names a lane and every item
    has a report that its unit accepts. -/
theorem ExpectedWork.turns_silent_iff (index : ResultIndex) :
    (∀ turn ∈ expected.turns, turn.Silent index) ↔
      ∀ unitId unit, expected.units.get? unitId = some unit → unit.lanes.Nonempty
        ∧ ∀ lane ∈ unit.lanes, ∀ entry, unit.Expects entry →
          ∃ result, index.get? (workItem unitId lane entry) = some result
            ∧ unit.Accepts result.outcome := by
  have hunit : ∀ unitId unit, (∀ turn ∈ turnsOf unitId unit, turn.Silent index) ↔
      unit.lanes.Nonempty ∧ ∀ lane ∈ unit.lanes, ∀ entry, unit.Expects entry →
        ∃ result, index.get? (workItem unitId lane entry) = some result
          ∧ unit.Accepts result.outcome := by
    intro _ _
    unfold turnsOf
    split
    case isTrue hempty => simp [hempty, Turn.Silent]
    case isFalse hlanes =>
      have hnonempty := Finset.nonempty_iff_ne_empty.mpr hlanes
      simp only [forall_mem_flatMap, forall_mem_map, Finset.mem_sort, Turn.Silent,
        hnonempty, true_and]
      rfl
  unfold turns
  rw [forall_mem_flatMap]
  constructor
  · intro h unitId unit hget
    exact (hunit unitId unit).mp (h (unitId, unit) (expected.units.mem_entries_iff.mpr hget))
  · intro h entry hentry
    exact (hunit entry.1 entry.2).mpr (h _ _ (expected.units.mem_entries_iff.mp hentry))

/-! ## The walk over the prerequisites -/

theorem checkDependency_silent (unitId dependency : Str) :
    (checkDependency expected ∅ unitId dependency).1 = [] := by
  unfold checkDependency
  split
  · rfl
  · rw [if_neg (Finset.notMem_empty dependency)]

theorem checkUnit_silent_iff (unitId : Str) :
    (checkUnit expected prerequisites ∅ unitId).1 = [] ↔
      ¬ Graph.ReachesCycle prerequisites unitId := by
  rw [← CycleSearch.exists_search_eq_ok_iff]
  unfold checkUnit transitivePrerequisites
  cases CycleSearch.search prerequisites unitId with
  | error => exact iff_of_false (by simp [Except.mapError]) (by simp)
  | ok visited =>
    refine iff_of_true ?_ ⟨visited, rfl⟩
    dsimp only [Except.mapError]
    simp [checkDependency_silent]

theorem checkPrerequisites_silent_iff :
    (checkPrerequisites expected prerequisites ∅).1 = [] ↔
      ∀ unitId unit, expected.units.get? unitId = some unit →
        ¬ Graph.ReachesCycle prerequisites unitId := by
  unfold checkPrerequisites OrderedMap.keys
  simp only [flatMap_map, flatMap_eq_nil_iff, checkUnit_silent_iff]
  constructor
  · intro h unitId unit hget
    exact h (unitId, unit) (expected.units.mem_entries_iff.mpr hget)
  · intro h entry hentry
    exact h entry.1 entry.2 (expected.units.mem_entries_iff.mp hentry)

/-! ## The verdict -/

theorem contradiction_eq_nil_iff :
    contradiction expected = [] ↔
      (expected.plannedNoWork = true → expected.units.entries = []) := by
  unfold contradiction
  cases hmarker : expected.plannedNoWork <;> cases hunits : expected.units.entries <;> simp

theorem aggregate_passed_of_empty {expected : ExpectedWork} (hunits : expected.units.entries = []) :
    (aggregate expected results prerequisites).passed = true ↔
      (indexResults results).2 = [] ∧ expected.plannedNoWork = true := by
  unfold aggregate ExpectedWork.isExplicitNoWork
  have hcontradiction := (contradiction_eq_nil_iff expected).mpr fun _ => hunits
  dsimp only
  rw [if_pos hunits, hcontradiction, hunits]
  cases expected.plannedNoWork <;> simp

theorem aggregate_passed_of_units {expected : ExpectedWork} (hunits : expected.units.entries ≠ []) :
    (aggregate expected results prerequisites).passed = true ↔
      contradiction expected = [] ∧ (indexResults results).2 = []
        ∧ (∀ turn ∈ expected.turns, turn.Silent (indexResults results).1)
        ∧ (checkPrerequisites expected prerequisites ∅).1 = [] := by
  unfold aggregate
  dsimp only
  rw [if_neg hunits]
  rw [List.isEmpty_iff, List.append_eq_nil_iff, ExpectedWork.scores]
  have hscores := failures_foldl_eq_nil_iff expected.turns_keys_nodup
    ⟨(indexResults results).1, contradiction expected ++ (indexResults results).2, [], ∅⟩
  rw [List.append_eq_nil_iff, and_assoc] at hscores
  constructor
  · rintro ⟨hfailures, hchecked⟩
    rw [failedUnits_foldl_eq_empty (fun _ => rfl) hfailures] at hchecked
    obtain ⟨hmarker, hduplicates, hsilent⟩ := hscores.mp hfailures
    exact ⟨hmarker, hduplicates, hsilent, hchecked⟩
  · rintro ⟨hmarker, hduplicates, hsilent, hchecked⟩
    have hfailures := hscores.mpr ⟨hmarker, hduplicates, hsilent⟩
    refine ⟨hfailures, ?_⟩
    rw [failedUnits_foldl_eq_empty (fun _ => rfl) hfailures]
    exact hchecked

/-- The required check is green exactly when the marker fits the plan, no two
    reports share an item, every unit names a lane, every item has an accepted
    report and no cycle can be reached from a unit of the plan. -/
theorem aggregate_passed_iff_green (expected : ExpectedWork) (results : List ReportedResult)
    (prerequisites : Prerequisites) :
    (aggregate expected results prerequisites).passed = true ↔
      Green expected results prerequisites := by
  have hnone : ∀ unitId unit, expected.units.entries = [] →
      expected.units.get? unitId ≠ some unit := by
    intro _ _ hunits hget
    have hmem := expected.units.mem_entries_iff.mpr hget
    rw [hunits] at hmem
    cases hmem
  by_cases hunits : expected.units.entries = []
  · rw [aggregate_passed_of_empty results prerequisites hunits, duplicates_eq_nil_iff]
    constructor
    · rintro ⟨honce, hmarker⟩
      exact ⟨iff_of_true hmarker hunits, honce, fun _ _ h => absurd h (hnone _ _ hunits),
        fun _ _ h => absurd h (hnone _ _ hunits), fun _ _ h => absurd h (hnone _ _ hunits)⟩
    · exact fun h => ⟨h.once, h.marker.mpr hunits⟩
  · rw [aggregate_passed_of_units results prerequisites hunits, duplicates_eq_nil_iff,
      contradiction_eq_nil_iff, ExpectedWork.turns_silent_iff, checkPrerequisites_silent_iff]
    constructor
    · rintro ⟨hmarker, honce, hturns, hacyclic⟩
      refine ⟨⟨hmarker, fun h => absurd h hunits⟩, honce,
        fun unitId unit hget => (hturns unitId unit hget).1, ?_, hacyclic⟩
      intro unitId unit hget lane hlane entry hentry
      obtain ⟨result, hresult, haccepts⟩ := (hturns unitId unit hget).2 lane hlane entry hentry
      obtain ⟨hmem, hitem⟩ := (get?_indexResults_iff honce).mp hresult
      obtain ⟨hid, hlane', hentry'⟩ := workItem_inj.mp hitem
      exact ⟨result, hmem, hid, hlane', hentry', haccepts⟩
    · intro h
      refine ⟨h.marker.mp, h.once, fun unitId unit hget => ⟨h.lanes unitId unit hget, ?_⟩,
        h.acyclic⟩
      intro lane hlane entry hentry
      obtain ⟨result, hmem, hid, hlane', hentry', haccepts⟩ :=
        h.reported unitId unit hget lane hlane entry hentry
      refine ⟨result, (get?_indexResults_iff h.once).mpr ⟨hmem, ?_⟩, haccepts⟩
      exact workItem_inj.mpr ⟨hid, hlane', hentry'⟩

end Velnor.Workflow
