/-
  Affected selection (velnor-workflow s2/reuse.rs, `select_affected`): the
  changed paths are classified, the units they hit are closed under the
  dependents, and a path whose impact is not provable selects every unit.

  Patterns are compiled and matched by a library, which is a parameter.  A
  compiled set of patterns is the list of them.
-/
import Velnor.Collections.Worklist
import Velnor.Workflow.Commands

namespace Velnor.Workflow

open Collections Text

/-! ## Changes and units -/

inductive ChangeKind where
  | added | modified | deleted | renamed
  deriving DecidableEq, Repr

def ChangeKind.verb : ChangeKind → Str
  | added => "added"
  | modified => "modified"
  | deleted => "deleted"
  | renamed => "renamed"

/-- A changed file. -/
structure ChangedPath where
  path : Str
  /-- The source of a rename. -/
  previous : Option Str
  status : ChangeKind
  deriving DecidableEq, Repr

/-- A path that is matched, and what happened to it. -/
structure EffectiveMatch where
  path : Str
  kind : ChangeKind
  deriving DecidableEq, Repr

/-- The path of every change and the source of every rename. -/
def effectiveMatches (changes : List ChangedPath) : List EffectiveMatch :=
  changes.flatMap fun change =>
    ⟨change.path, change.status⟩ :: change.previous.toList.map fun previous => ⟨previous, .deleted⟩

def effectivePaths (changes : List ChangedPath) : List Str :=
  (effectiveMatches changes).map EffectiveMatch.path

/-- A unit of the table. -/
structure WatchedUnit where
  id : Str
  watch : List Str
  dependsOn : List Str
  kind : Str
  commands : List Str
  readsClosed : Bool

/-- What is selected, and why. -/
structure AffectedSelection where
  required : Finset Str
  fullUnits : Finset Str
  prereqInputs : Finset Str
  closedExcluded : Finset Str
  fallbackFull : Bool
  explanations : OrderedMap Str Str
  fallbackReason : Option Str

/-! ## Ownership -/

/-- The glob library: what is wrong with a pattern, what is wrong with a set of
    patterns, and which paths a pattern matches. -/
structure Globs where
  patternError : Str → Option Str
  setError : List Str → Option Str
  isMatch : Str → Str → Bool

/-- A unit with its patterns compiled. -/
structure CompiledUnit where
  unit : WatchedUnit
  watch : List Str
  positives : List Str
  negatives : List Str
  opacity : Option Str
  readsClosed : Bool

section
variable (globs : Globs)

def Globs.matchesAny (patterns : List Str) (path : Str) : Bool :=
  patterns.any fun pattern => globs.isMatch pattern path

/-- Extracted patterns that are none make the unit opaque. -/
def keepPatterns (unitId role : Str) (patterns : List Str) (reads : CommandReads) : CommandReads :=
  patterns.foldl (fun reads pattern =>
    if (globs.patternError pattern).isSome then
      reads.markOpaque (unitReason unitId
        ("declares an unreadable command " ++ role ++ " `" ++ pattern ++ "`"))
    else reads) reads

def Globs.readable (patterns : List Str) : List Str :=
  patterns.filter fun pattern => (globs.patternError pattern).isNone

/-- The unit as it is compiled where no pattern stops it. -/
def Globs.compiled (unit : WatchedUnit) : CompiledUnit :=
  let reads := analyzeCommands unit.id unit.kind unit.commands
  let marked := keepPatterns globs unit.id "ignore-glob" reads.negatives
    (keepPatterns globs unit.id "read-glob" reads.positives reads)
  { unit := unit
    watch := unit.watch
    positives := globs.readable reads.positives
    negatives := globs.readable reads.negatives
    opacity := marked.opacity
    readsClosed := unit.readsClosed }

def Globs.checkPattern (unit : WatchedUnit) (pattern : Str) : Except Str Unit :=
  match globs.patternError pattern with
  | some error => .error ("invalid watch pattern `" ++ pattern ++ "` for unit "
      ++ unit.id ++ ": " ++ error)
  | none => .ok ()

def Globs.checkSet (what : Str) (patterns : List Str) : Except Str Unit :=
  match globs.setError patterns with
  | some error => .error ("build " ++ what ++ " matcher: " ++ error)
  | none => .ok ()

/-- A watch pattern that is none is an error. -/
def Globs.compileUnit (unit : WatchedUnit) : Except Str CompiledUnit := do
  let compiled := globs.compiled unit
  unit.watch.forM (globs.checkPattern unit)
  globs.checkSet "watch" compiled.watch
  globs.checkSet "read-glob" compiled.positives
  globs.checkSet "read-glob" compiled.negatives
  .ok compiled

def compileOwnership (units : List WatchedUnit) : Except Str (List CompiledUnit) :=
  units.mapM globs.compileUnit

/-- What is behind each `/` of a path. -/
def suffixesBehind : Str → List Str
  | [] => []
  | c :: rest => if c = '/' then rest :: suffixesBehind rest else suffixesBehind rest

def pathSuffixes (path : Str) : List Str := path :: suffixesBehind path

/-- A read-glob matches the path or a suffix of it, and the ignore-globs do not
    match all of them. -/
def extractionOwns (unit : CompiledUnit) (path : Str) : Bool :=
  (pathSuffixes path).any (globs.matchesAny unit.positives)
    && !(pathSuffixes path).all (globs.matchesAny unit.negatives)

/-- The unit watches the path or its commands read it. -/
def ownsPath (unit : CompiledUnit) (path : Str) : Bool :=
  globs.matchesAny unit.watch path || extractionOwns globs unit path

/-! ## Paths -/

/-- What a path says about the units. -/
inductive PathVerdict where
  | owned (units : Finset Str)
  | widened (units : Finset Str) (reason : Str)
  | unknown (reason : Str)
  | irrelevant

/-- Opaque units whose declared reads leave the path out. -/
def closedExcludedUnits (compiled : List CompiledUnit) (path : Str) : Finset Str :=
  ((compiled.filter fun unit =>
    unit.opacity.isSome && unit.readsClosed && !ownsPath globs unit path).map (·.unit.id)).toFinset

def joinWith (separator : Str) (texts : List Str) : Str :=
  separator.intercalate texts

def quoteName (name : Str) : Str := '`' :: name ++ ['`']

def missingContractHint (units : Finset Str) (path : Str) : Str :=
  "missing contract: declare `reads` entries (type \"paths\", \"script\", or \"unresolved\") for "
    ++ (if units.card = 1 then "unit".toList else "units") ++ ' ' ::
    joinWith ", " ((inOrder units).map quoteName)
    ++ " covering `" ++ path ++ "` to narrow"

def consulted : Str := "(consulted declared reads, watch globs, command read-globs; "

/-- The units of a list that own a path. -/
def ownersOf (compiled : List CompiledUnit) (path : Str) : List CompiledUnit :=
  compiled.filter fun unit => ownsPath globs unit path

/-- The unit may read files that nothing names. -/
def CompiledUnit.isOpenlyOpaque (unit : CompiledUnit) : Bool :=
  unit.opacity.isSome && !unit.readsClosed

/-- The owners of a path, or the openly opaque units for a path without one. -/
def classifyPath (compiled : List CompiledUnit) (path : Str) : PathVerdict :=
  if path = [] then
    .unknown ("empty changed path selects every unit " ++ consulted
      ++ "an empty path cannot be matched safely)")
  else if path.head? = some '"' then
    .unknown ("quoted path `" ++ path ++ "` selects every unit " ++ consulted
      ++ "a quoted diff path cannot be matched safely)")
  else
    let owners := ((ownersOf globs compiled path).map (·.unit.id)).toFinset
    let openly := compiled.filter fun unit =>
      !ownsPath globs unit path && unit.isOpenlyOpaque
    let widened := (openly.map (·.unit.id)).toFinset
    let causes := openly.filterMap (·.opacity)
    if owners ≠ ∅ then .owned owners
    else if widened = ∅ then .irrelevant
    else
      let detail := if causes = [] then ("every consulted unit is opaque" : Str)
        else joinWith "; " causes
      let tail := consulted ++ detail ++ "; " ++ missingContractHint widened path
        ++ ")"
      if widened.card = compiled.length then
        .unknown ("unmatched path `" ++ path ++ "` selects every unit " ++ tail)
      else
        .widened widened
          ("unmatched path `" ++ path ++ "` selects only opaque units " ++ tail)

/-- What a path under `.github/` concerns. -/
inductive GithubVerdict where
  | everything (reason : Str)
  | kind (kind : Str)
  | releaseScope
  | unknown (reason : Str)
  deriving DecidableEq, Repr

def knownKinds : List Str := [
  "rust", "gradle", "node", "bun", "swift",
  "opentofu", "docker", "homebrew", "docs"]

def globalFiles : List Str := [
  "workflows/ci-pr.yml", "workflows/ci-main.yml", "workflows/nightly.yml",
  "workflows/preview.yml", "workflows/ci-policy.yml", "actionlint.yaml",
  "ci/project.toml"]

def releaseFiles : List Str := [
  "ci-runtime-products.yml", "ci-release-package-signer.yml",
  "release.yml", "maintenance.yml"]

/-- The kind that a reusable is named after. -/
def reusableKind (file : Str) : Option Str := do
  let name ← file.dropPrefix? "ci-unit-"
  let kind ← name.dropSuffix? ".yml"
  if kind ∈ knownKinds then some kind else none

/-- The classification table does not say what a path concerns. -/
def unprovenImpact (path : Str) : GithubVerdict :=
  .unknown ("CI contract path `" ++ path ++ "` has unproven impact (consulted the " ++
    "CI-contract classification table); selects every unit")

/-- The verdict on a file of `.github/workflows/`. -/
def workflowVerdict (path file : Str) : GithubVerdict :=
  match reusableKind file with
  | some kind => .kind kind
  | none =>
    if file ∈ releaseFiles then .releaseScope
    else unprovenImpact path

/-- The CI-contract classification table. -/
def githubVerdict (path : Str) : Option GithubVerdict :=
  match path.dropPrefix? ".github/" with
  | none => none
  | some rest =>
    let everything : GithubVerdict :=
      .everything ("global path `" ++ path ++ "` selects every unit")
    if rest ∈ globalFiles then some everything
    else if "actions/setup-velnor-workflow/".toList.isPrefixOf rest then some everything
    else
      match rest.dropPrefix? "workflows/" with
      | some file => some (workflowVerdict path file)
      | none => some (unprovenImpact path)

/-! ## The dependents -/

structure SelectionClosure where
  required : Finset Str
  prereqInputs : Finset Str
  affectedBy : OrderedMap Str (Finset Str)
  requiredBy : OrderedMap Str (Finset Str)

variable (units : List WatchedUnit)

/-- The units that name an id among their dependencies. -/
def dependents : Successors Str where
  next id := (units.filter fun unit => id ∈ unit.dependsOn).map WatchedUnit.id
  bound := (units.map WatchedUnit.id).toFinset
  bounded := by
    intro id successor hsuccessor
    obtain ⟨unit, hunit, rfl⟩ := List.mem_map.mp hsuccessor
    exact List.mem_toFinset.mpr (List.mem_map_of_mem (List.mem_of_mem_filter hunit))

/-- The dependencies of the first unit with an id. -/
def dependencies : Successors Str where
  next id := ((units.find? fun unit => unit.id = id).map WatchedUnit.dependsOn).getD []
  bound := (units.flatMap WatchedUnit.dependsOn).toFinset
  bounded := by
    intro id successor hsuccessor
    cases hunit : units.find? fun unit => unit.id = id with
    | none => simp [hunit] at hsuccessor
    | some unit =>
      rw [hunit] at hsuccessor
      exact List.mem_toFinset.mpr
        (List.mem_flatMap.mpr ⟨unit, List.mem_of_find?_eq_some hunit, hsuccessor⟩)

/-- The inputs are the ids found on the way, each with its consumer. -/
def walkPrerequisiteInputs (roots : Finset Str) : Finset Str × OrderedMap Str (Finset Str) :=
  let walked := Worklist.closure (dependencies units) roots
  (walked.origins.keys.toFinset, walked.origins)

/-- The dependents of the changed units, then their inputs. -/
def expandSelectionClosure (changed : Finset Str) : SelectionClosure :=
  let affected := Worklist.closure (dependents units) changed
  let (prereqInputs, requiredBy) := walkPrerequisiteInputs units affected.seen
  ⟨affected.seen, prereqInputs, affected.origins, requiredBy⟩

/-! ## The selection -/

/-- Every unit, for one reason. -/
def fallbackSelection (reason : Str) : AffectedSelection :=
  let ids := (units.map WatchedUnit.id).toFinset
  { required := ids
    fullUnits := ids
    prereqInputs := ∅
    closedExcluded := ∅
    fallbackFull := true
    explanations := .ofEntries (units.map fun unit => (unit.id, reason))
    fallbackReason := some reason }

abbrev Hits := OrderedMap Str (List Str)

def Hits.record (hits : Hits) (item id : Str) : Hits :=
  hits.insert id ((hits.get? id).getD [] ++ [item])

def Hits.recordAll (hits : Hits) (item : Str) (ids : List Str) : Hits :=
  ids.foldl (fun hits id => hits.record item id) hits

/-- Every id that a compiled unit has joins the hits. -/
def recordPathHits (compiled : List CompiledUnit) (hits : Hits) (ids : Finset Str)
    (item : Str) : Hits :=
  hits.recordAll item ((inOrder ids).filter fun id => compiled.any fun unit => unit.unit.id = id)

/-- What the loop over the changed paths has found so far. -/
structure Progress where
  hits : Hits
  kindHits : Hits
  opaqueReasons : List Str
  closedExcluded : Finset Str

def Progress.initial : Progress := ⟨.empty, .empty, [], ∅⟩

/-- One changed path; a reason that selects every unit ends the loop. -/
def Progress.visit (compiled : List CompiledUnit) (progress : Progress)
    (candidate : EffectiveMatch) : Except Str Progress :=
  let path := quoteName candidate.path
  match githubVerdict candidate.path with
  | some (.everything reason) => .error reason
  | some (.unknown reason) => .error reason
  | some (.kind kind) =>
    let item := "kind reusable " ++ path ++ " (" ++ candidate.kind.verb ++ ")"
    let named := compiled.filter fun unit => eqIgnoreAsciiCase unit.unit.kind kind
    .ok { progress with kindHits := progress.kindHits.recordAll item (named.map (·.unit.id)) }
  | some .releaseScope => .ok progress
  | none =>
    match classifyPath globs compiled candidate.path with
    | .owned owners =>
      let item := path ++ " (" ++ candidate.kind.verb ++ ")"
      .ok { progress with hits := recordPathHits compiled progress.hits owners item }
    | .widened units reason =>
      let item := path ++ " (" ++ candidate.kind.verb ++ "; opaque fallback)"
      .ok { progress with
        hits := recordPathHits compiled progress.hits units item
        opaqueReasons := progress.opaqueReasons ++ [reason]
        closedExcluded :=
          progress.closedExcluded ∪ closedExcludedUnits globs compiled candidate.path }
    | .unknown reason => .error reason
    | .irrelevant =>
      .ok { progress with closedExcluded :=
        progress.closedExcluded ∪ closedExcludedUnits globs compiled candidate.path }

def sortTexts (texts : List Str) : List Str :=
  texts.mergeSort fun a b => decide (a ≤ b)

def joinOpaqueReasons (reasons : List Str) : Option Str :=
  if reasons = [] then none else some (joinWith "; " (sortTexts reasons).dedup)

/-- The explanations: direct matches, kind matches, dependents, then inputs. -/
def explain (progress : Progress) (closure : SelectionClosure) : OrderedMap Str Str :=
  let matched : Str := "matched changed path "
  let direct := progress.hits.entries.foldl (fun texts entry =>
    texts.insert entry.1 (matched ++ joinWith ", " (sortTexts entry.2))) .empty
  let kinds := progress.kindHits.entries.foldl (fun (texts : OrderedMap Str Str) entry =>
    let attribution : Str := "via " ++ joinWith ", " (sortTexts entry.2)
    texts.insert entry.1 (match texts.get? entry.1 with
      | some existing => existing ++ ' ' :: attribution
      | none => matched ++ attribution)) direct
  let affected := closure.affectedBy.entries.foldl (fun texts entry =>
    texts.insert entry.1 ("dependent of " ++ joinWith ", " (inOrder entry.2))) kinds
  closure.requiredBy.entries.foldl (fun texts entry =>
    texts.insert entry.1 ("prerequisite of " ++ joinWith ", " (inOrder entry.2))) affected

/-- The units that the changed paths hit. -/
def Progress.direct (progress : Progress) : Finset Str :=
  (progress.hits.keys ++ progress.kindHits.keys).toFinset

/-- The selection from all that the loop found. -/
def finishSelection (units : List WatchedUnit) (progress : Progress) : AffectedSelection :=
  let closure := expandSelectionClosure units progress.direct
  { required := closure.required
    fullUnits := closure.required
    prereqInputs := closure.prereqInputs
    closedExcluded := progress.closedExcluded
    fallbackFull := false
    explanations := explain progress closure
    fallbackReason := joinOpaqueReasons progress.opaqueReasons }

/-- The first id that an earlier unit has. -/
def duplicateId : Finset Str → List WatchedUnit → Option Str
  | _, [] => none
  | seen, unit :: units =>
    if unit.id ∈ seen then some unit.id else duplicateId (insert unit.id seen) units

/-- The units that a change list affects. -/
def selectAffected (units : List WatchedUnit) (changes : List ChangedPath)
    (globalPrefixes : List Str) : Except Str AffectedSelection :=
  match duplicateId ∅ units with
  | some id => .error ("duplicate unit id in affected selection: " ++ id)
  | none =>
    let candidates := effectiveMatches changes
    if candidates = [] then .ok ⟨∅, ∅, ∅, ∅, false, .empty, none⟩
    else
      match (candidates.map EffectiveMatch.path).find? fun path =>
          globalPrefixes.any fun parent => parent.isPrefixOf path with
      | some path => .ok (fallbackSelection units
          ("global path `" ++ path ++ "` selects every unit"))
      | none =>
        match compileOwnership globs units with
        | .error error => .error error
        | .ok compiled =>
          match candidates.foldlM (Progress.visit globs compiled) .initial with
          | .error reason => .ok (fallbackSelection units reason)
          | .ok progress => .ok (finishSelection units progress)

end

end Velnor.Workflow
