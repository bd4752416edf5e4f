/-
  The verdict of the required check (velnor-workflow s2/reuse.rs, `aggregate`):
  the planner's expected work is scored against the reported results, and the
  prerequisites of every expected unit are walked for cycles and for units that
  did not pass.

  The platform and the command digest of an expected unit, which the verdict
  does not read, are left out.
-/
import Velnor.Collections.CycleSearch
import Velnor.Text.Str

namespace Velnor.Workflow

open Collections

/-! ## The plan and the reports -/

/-- What the planner expects of a unit. -/
structure ExpectedUnit where
  lanes : Finset Str
  /-- Empty is one unmatrixed entry. -/
  matrix : Finset Str
  required : Bool
  plannedSkip : Option Str

/-- The plan. -/
structure ExpectedWork where
  units : OrderedMap Str ExpectedUnit
  plannedNoWork : Bool

/-- The plan says that there is nothing to do. -/
def ExpectedWork.isExplicitNoWork (expected : ExpectedWork) : Bool :=
  expected.units.entries.isEmpty && expected.plannedNoWork

/-- How a job ended. -/
inductive ReportedOutcome where
  | success
  | failure
  | skipped (reason : Str)
  | cancelled
  deriving DecidableEq, Repr

/-- What a job reports. -/
structure ReportedResult where
  unitId : Str
  lane : Str
  matrixEntry : Option Str
  outcome : ReportedOutcome
  reusedFrom : Option Str
  deriving DecidableEq, Repr

/-- A unit, a lane and a matrix entry, compared in this order; no entry comes
    before every entry. -/
abbrev WorkItem := Str ×ₗ Str ×ₗ WithBot Str

/-- The item of a unit, a lane and an entry. -/
def workItem (unitId lane : Str) (entry : Option Str) : WorkItem :=
  toLex (unitId, toLex (lane, entry))

/-- The item that is reported on. -/
def ReportedResult.item (result : ReportedResult) : WorkItem :=
  workItem result.unitId result.lane result.matrixEntry

/-! ## The verdict -/

/-- What became of an item. -/
inductive Disposition where
  | executed
  | reused
  | skippedPlanned
  | failed
  | missing
  | cancelled
  | unexpectedSkip
  | blockedByPrerequisite
  | buildInput
  | extra
  deriving DecidableEq, Repr

/-- One line of the report on the verdict. -/
structure WorkExplanation where
  unitId : Str
  lane : Str
  matrixEntry : Option Str
  disposition : Disposition
  detail : Str
  deriving DecidableEq, Repr

/-- What the required check says. -/
structure AggregateVerdict where
  passed : Bool
  failures : List Str
  explanations : List WorkExplanation
  checks : Finset Str

variable (unitId lane : Str) (entry : Option Str)

/-- An item, as failures name it. -/
def describeItem : Str :=
  match entry with
  | some entry => unitId ++ ' ' :: lane ++ '[' :: entry ++ "]"
  | none => unitId ++ ' ' :: lane

/-- The check of an item. -/
def checkNameForWork : Str :=
  let name := "ci/" ++ unitId ++ '/' :: lane
  match entry with
  | some entry => if entry = [] then name else name ++ '[' :: entry ++ "]"
  | none => name

/-- The matrix entries a unit must report. -/
def effectiveEntries (matrix : Finset Str) : List (Option Str) :=
  if matrix = ∅ then [none] else (matrix.sort (· ≤ ·)).map some

/-- The checks of a unit. -/
def checkNamesForUnit (unitId : Str) (unit : ExpectedUnit) : Finset Str :=
  ((unit.lanes.sort (· ≤ ·)).flatMap fun lane =>
    (effectiveEntries unit.matrix).map (checkNameForWork unitId lane)).toFinset

/-! ## Reports by item -/

/-- The reports by item. -/
abbrev ResultIndex := OrderedMap WorkItem ReportedResult

/-- Takes in a report; a second one for an item is a failure. -/
def indexResult (indexed : ResultIndex × List Str) (result : ReportedResult) :
    ResultIndex × List Str :=
  (indexed.1.insert result.item result,
    if (indexed.1.get? result.item).isSome then
      indexed.2 ++ ["duplicate result for "
        ++ describeItem result.unitId result.lane result.matrixEntry]
    else indexed.2)

/-- The index of all reports, with the duplicates. -/
def indexResults (results : List ReportedResult) : ResultIndex × List Str :=
  results.foldl indexResult (.empty, [])

/-! ## Scores -/

/-- What one item adds to the verdict. -/
structure ItemScore where
  failure : Option Str
  explanation : WorkExplanation
  failed : Bool

/-- An expected item against its report. -/
def scoreExpectedItem (unitId : Str) (unit : ExpectedUnit) (lane : Str)
    (entry : Option Str) (report : Option ReportedResult) : ItemScore :=
  let target := describeItem unitId lane entry
  let holds (disposition : Disposition) (detail : Str) : ItemScore :=
    ⟨none, ⟨unitId, lane, entry, disposition, detail⟩, false⟩
  let fails (failure : Str) (disposition : Disposition) (detail : Str) : ItemScore :=
    ⟨some failure, ⟨unitId, lane, entry, disposition, detail⟩, true⟩
  match report with
  | none =>
    fails ("missing result for " ++ target) .missing
      (match entry with
        | some entry => "incomplete matrix: entry `" ++ entry ++ "` has no result"
        | none => "no result reported")
  | some report =>
    match report.outcome with
    | .success =>
      match report.reusedFrom with
      | some run => holds .reused ("reused successful result from " ++ run)
      | none => holds .executed "ran to success"
    | .failure => fails ("failed work " ++ target) .failed "reported failure"
    | .skipped reason =>
      match unit.plannedSkip with
      | some planned =>
        holds .skippedPlanned ("planned: " ++ planned ++ "; reported: " ++ reason)
      | none =>
        fails ("unexpected skip of " ++ target ++ ": " ++ reason)
          .unexpectedSkip ("skipped without a planned reason: " ++ reason)
    | .cancelled =>
      fails
        (if unit.required then "cancelled required work " ++ target
          else "cancelled work " ++ target ++ " has no verdict")
        .cancelled "run cancelled before a verdict"

/-- What the loop over the expected units has found so far. -/
structure Scores where
  index : ResultIndex
  failures : List Str
  explanations : List WorkExplanation
  failedUnits : Finset Str

/-- One turn of the loop: a unit without lanes, or one of its items. -/
inductive Turn where
  | noLanes (unitId : Str)
  | item (unitId : Str) (unit : ExpectedUnit) (lane : Str) (entry : Option Str)

/-- The turns for one unit. -/
def turnsOf (unitId : Str) (unit : ExpectedUnit) : List Turn :=
  if unit.lanes = ∅ then [.noLanes unitId]
  else (unit.lanes.sort (· ≤ ·)).flatMap fun lane =>
    (effectiveEntries unit.matrix).map (.item unitId unit lane)

/-- The turns in the order of the loop. -/
def ExpectedWork.turns (expected : ExpectedWork) : List Turn :=
  expected.units.entries.flatMap fun entry => turnsOf entry.1 entry.2

/-- Scores a turn and takes its report off the index. -/
def Scores.turn (scores : Scores) : Turn → Scores
  | .noLanes unitId =>
    { scores with
      failures := scores.failures ++ ["expected unit `" ++ unitId ++ "` names no lanes"]
      failedUnits := insert unitId scores.failedUnits }
  | .item unitId unit lane entry =>
    let key := workItem unitId lane entry
    let score := scoreExpectedItem unitId unit lane entry (scores.index.get? key)
    { index := scores.index.erase key
      failures := scores.failures ++ score.failure.toList
      explanations := scores.explanations ++ [score.explanation]
      failedUnits := if score.failed then insert unitId scores.failedUnits
        else scores.failedUnits }

/-! ## Prerequisites -/

/-- The direct dependencies of the units. -/
abbrev Prerequisites := Collections.Graph Str

/-- Everything a unit depends on, or the cycle that was met. -/
def transitivePrerequisites (unit : Str) (prerequisites : Prerequisites) :
    Except Str (Finset Str) :=
  (CycleSearch.search prerequisites unit).mapError fun id =>
    "prerequisite graph contains a cycle at `" ++ id ++ "`"

/-- What a dependency of a unit adds to the failures and the explanations. -/
def checkDependency (expected : ExpectedWork) (failedUnits : Finset Str)
    (unitId dependency : Str) : List Str × List WorkExplanation :=
  if (expected.units.get? dependency).isNone then
    ([], [⟨unitId, [], none, .buildInput, "prerequisite `" ++ dependency
      ++ "` is an out-of-plan build input provided in-job; no verdict expected"⟩])
  else if dependency ∈ failedUnits then
    (["prerequisite `" ++ dependency ++ "` of `" ++ unitId ++ "` did not pass"],
      [⟨unitId, [], none, .blockedByPrerequisite,
        "prerequisite `" ++ dependency ++ "` did not pass"⟩])
  else ([], [])

variable (expected : ExpectedWork) (prerequisites : Prerequisites) (failedUnits : Finset Str)

/-- The prerequisites of one unit. -/
def checkUnit (unitId : Str) : List Str × List WorkExplanation :=
  match transitivePrerequisites unitId prerequisites with
  | .error cycle => ([cycle], [])
  | .ok transitive =>
    let checked := (transitive.sort (· ≤ ·)).map (checkDependency expected failedUnits unitId)
    (checked.flatMap Prod.fst, checked.flatMap Prod.snd)

/-- The prerequisites of every unit of the plan. -/
def checkPrerequisites : List Str × List WorkExplanation :=
  let checked := expected.units.keys.map (checkUnit expected prerequisites failedUnits)
  (checked.flatMap Prod.fst, checked.flatMap Prod.snd)

/-! ## The aggregate -/

/-- The reports that no item of the plan took. -/
def ResultIndex.extras (index : ResultIndex) : List WorkExplanation :=
  index.entries.map fun entry =>
    ⟨entry.2.unitId, entry.2.lane, entry.2.matrixEntry, .extra,
      "reported work outside the plan; ignored"⟩

/-- The whole loop. -/
def ExpectedWork.scores (expected : ExpectedWork) (index : ResultIndex)
    (failures : List Str) : Scores :=
  expected.turns.foldl Scores.turn ⟨index, failures, [], ∅⟩

/-- A plan without work that lists units. -/
def contradiction (expected : ExpectedWork) : List Str :=
  if expected.plannedNoWork && !expected.units.entries.isEmpty then
    ["planner marked no-work but listed expected units; the plan is contradictory"]
  else []

/-- The verdict on a plan and its reports. -/
def aggregate (expected : ExpectedWork) (results : List ReportedResult)
    (prerequisites : Prerequisites) : AggregateVerdict :=
  let (index, duplicates) := indexResults results
  let failures := contradiction expected ++ duplicates
  if expected.units.entries = [] then
    let failures := failures ++
      if expected.isExplicitNoWork then []
      else ["planner emitted no expected work without the explicit no-work marker".toList]
    { passed := failures.isEmpty
      failures := failures
      explanations := results.map fun result =>
        ⟨result.unitId, result.lane, result.matrixEntry, .extra,
          "reported work outside the planned no-work set; ignored".toList⟩
      checks := ∅ }
  else
    let scores := expected.scores index failures
    let checked := checkPrerequisites expected prerequisites scores.failedUnits
    let failures := scores.failures ++ checked.1
    { passed := failures.isEmpty
      failures := failures
      explanations := scores.explanations ++ scores.index.extras ++ checked.2
      checks := expected.units.entries.foldl
        (fun checks entry => checks ∪ checkNamesForUnit entry.1 entry.2) ∅ }

end Velnor.Workflow
