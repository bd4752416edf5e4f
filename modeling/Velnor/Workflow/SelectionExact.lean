/-
  Which owners of a changed path the affected selection keeps.

  A path below `.github/` that names a kind reusable or a release lane is
  classified by its name alone: its owners are not asked.  Such an owner is
  selected only when something else selects it, and that is the exact
  condition under which the selection misses no owner.
-/
import Velnor.Workflow.Selection

namespace Velnor.Workflow

open Collections Text List Progress

/-! ## Vocabulary -/

section Vocabulary

variable (globs : Globs)

/-- A watch glob or an extracted read-glob of the unit matches the path. -/
def WatchedUnit.Owns (unit : WatchedUnit) (path : Str) : Prop :=
  ownsPath globs (globs.compiled unit) path = true

instance (unit : WatchedUnit) (path : Str) : Decidable (unit.Owns globs path) :=
  inferInstanceAs (Decidable (_ = true))

def WatchedUnit.OpenlyOpaque (unit : WatchedUnit) : Prop :=
  (globs.compiled unit).isOpenlyOpaque = true

/-- The library takes the watch globs and the three sets of the unit. -/
structure Globs.Takes (unit : WatchedUnit) : Prop where
  patterns : ∀ pattern ∈ unit.watch, globs.patternError pattern = none
  watch : globs.setError unit.watch = none
  positives : globs.setError (globs.compiled unit).positives = none
  negatives : globs.setError (globs.compiled unit).negatives = none

variable (units : List WatchedUnit)

/-- The id has a unit that names the other among its dependencies. -/
def DependsOn (id dependency : Str) : Prop :=
  ∃ unit ∈ units, unit.id = id ∧ dependency ∈ unit.dependsOn

variable (path : Str)

/-- No unit owns the path and every unit may read it, or it cannot be matched. -/
def Unprovable : Prop :=
  path = [] ∨ path.head? = some '"'
    ∨ (units ≠ [] ∧ ∀ unit ∈ units, ¬ unit.Owns globs path ∧ unit.OpenlyOpaque globs)

/-- The unit owns the path, or nothing does and the unit may read it. -/
def WatchedUnit.Reads (unit : WatchedUnit) : Prop :=
  unit.Owns globs path ∨ ((∀ other ∈ units, ¬ other.Owns globs path) ∧ unit.OpenlyOpaque globs)

/-- The path selects every unit. -/
def SelectsEverything : Prop :=
  match githubVerdict path with
  | some (.everything _) => True
  | some (.unknown _) => True
  | some _ => False
  | none => Unprovable globs units path

/-- The path selects the unit. -/
def Selects (unit : WatchedUnit) : Prop :=
  match githubVerdict path with
  | some (.kind kind) => eqIgnoreAsciiCase unit.kind kind = true
  | some _ => False
  | none => unit.Reads globs units path

/-- The path is classified by its name alone and selects less than every unit. -/
def NarrowedByName : Prop :=
  githubVerdict path = some .releaseScope ∨ ∃ kind, githubVerdict path = some (.kind kind)

end Vocabulary

/-! ## Compilation -/

variable {globs : Globs} {units : List WatchedUnit}

variable {unit : WatchedUnit} {id : Str}

theorem Globs.Takes.compileUnit (h : globs.Takes unit) :
    globs.compileUnit unit = .ok (globs.compiled unit) := by
  have hpatterns : ∀ patterns : List Str,
      (∀ pattern ∈ patterns, globs.patternError pattern = none) →
        patterns.forM (globs.checkPattern unit) = .ok () := by
    intro patterns hnone
    induction patterns with
    | nil => rfl
    | cons pattern patterns ih =>
      rw [forall_mem_cons] at hnone
      have hfirst : globs.checkPattern unit pattern = .ok () := by
        rw [checkPattern, hnone.1]
      show (globs.checkPattern unit pattern >>= fun _ =>
        patterns.forM (globs.checkPattern unit)) = .ok ()
      rw [hfirst]
      exact ih hnone.2
  have hset : ∀ what patterns, globs.setError patterns = none →
      globs.checkSet what patterns = .ok () := by
    intro _ _ hnone
    rw [checkSet, hnone]
  have hwatch : (globs.compiled unit).watch = unit.watch := rfl
  unfold Globs.compileUnit
  dsimp only
  rw [hpatterns _ h.patterns, hwatch, hset _ _ h.watch, hset _ _ h.positives, hset _ _ h.negatives]
  rfl

theorem compileOwnership_ok (h : ∀ unit ∈ units, globs.Takes unit) :
    compileOwnership globs units = .ok (units.map globs.compiled) := by
  unfold compileOwnership
  induction units with
  | nil => rfl
  | cons _ _ ih =>
    rw [forall_mem_cons] at h
    rw [mapM_cons, h.1.compileUnit, ih h.2]
    rfl

theorem duplicateId_eq_none (h : (units.map WatchedUnit.id).Nodup) (seen : Finset Str)
    (hseen : ∀ unit ∈ units, unit.id ∉ seen) : duplicateId seen units = none := by
  induction units generalizing seen with
  | nil => rfl
  | cons _ _ ih =>
    rw [map_cons, nodup_cons] at h
    rw [forall_mem_cons] at hseen
    rw [duplicateId, if_neg hseen.1]
    refine ih h.2 _ fun other hother hmem => ?_
    rcases Finset.mem_insert.mp hmem with heq | hmem
    · exact h.1 (heq ▸ mem_map_of_mem hother)
    · exact hseen.2 other hother hmem

/-! ## Classification -/

variable {hits : Hits} {item : Str} {progress : Progress} {changes : List ChangedPath}
    {keep : CompiledUnit → Bool}

/-- The ids of the units that a filter on the compiled ones keeps. -/
theorem mem_filter_ids :
    id ∈ (((units.map globs.compiled).filter keep).map (·.unit.id)).toFinset ↔
      ∃ unit ∈ units, unit.id = id ∧ keep (globs.compiled unit) = true := by
  simp only [mem_toFinset, mem_map, mem_filter]
  constructor
  · rintro ⟨_, ⟨⟨unit, hunit, rfl⟩, hkeep⟩, rfl⟩
    exact ⟨unit, hunit, rfl, hkeep⟩
  · rintro ⟨unit, hunit, rfl, hkeep⟩
    exact ⟨globs.compiled unit, ⟨⟨unit, hunit, rfl⟩, hkeep⟩, rfl⟩

theorem filter_ids_eq_empty_iff :
    (((units.map globs.compiled).filter keep).map (·.unit.id)).toFinset = ∅ ↔
      ∀ unit ∈ units, ¬ keep (globs.compiled unit) = true := by
  rw [Finset.eq_empty_iff_forall_notMem]
  constructor
  · exact fun h unit hunit hkeep => h unit.id (mem_filter_ids.mpr ⟨unit, hunit, rfl, hkeep⟩)
  · intro h _ hid
    obtain ⟨unit, hunit, -, hkeep⟩ := mem_filter_ids.mp hid
    exact h unit hunit hkeep

/-- With distinct ids, as many ids as units are the ids of all units. -/
theorem card_filter_ids_eq_iff (hids : (units.map WatchedUnit.id).Nodup)
    (keep : CompiledUnit → Bool) :
    (((units.map globs.compiled).filter keep).map (·.unit.id)).toFinset.card =
        (units.map globs.compiled).length ↔
      ∀ unit ∈ units, keep (globs.compiled unit) = true := by
  have hnodup : ((units.filter fun unit => keep (globs.compiled unit)).map
      WatchedUnit.id).Nodup := hids.sublist (filter_sublist.map _)
  have hmap : ((units.map globs.compiled).filter keep).map (·.unit.id) =
      (units.filter fun unit => keep (globs.compiled unit)).map WatchedUnit.id := by
    rw [filter_map, map_map]
    rfl
  rw [hmap, toFinset_card_of_nodup hnodup, length_map, length_map, length_filter_eq_length_iff]

/-- What the classification of a path says about the units. -/
theorem classifyPath_spec (globs : Globs) (hids : (units.map WatchedUnit.id).Nodup) (path : Str) :
    match classifyPath globs (units.map globs.compiled) path with
    | .owned ids | .widened ids _ => ¬ Unprovable globs units path
        ∧ ∀ id, id ∈ ids ↔ ∃ unit ∈ units, unit.id = id ∧ unit.Reads globs units path
    | .unknown _ => Unprovable globs units path
    | .irrelevant => ¬ Unprovable globs units path
        ∧ ∀ unit ∈ units, ¬ unit.Reads globs units path := by
  unfold classifyPath
  by_cases hempty : path = []
  · rw [if_pos hempty]
    exact .inl hempty
  rw [if_neg hempty]
  by_cases hquoted : path.head? = some '"'
  · rw [if_pos hquoted]
    exact .inr (.inl hquoted)
  rw [if_neg hquoted]
  have hprovable : (¬ (units ≠ [] ∧ ∀ unit ∈ units, ¬ unit.Owns globs path
      ∧ unit.OpenlyOpaque globs)) → ¬ Unprovable globs units path := by
    rintro h (h' | h' | h')
    · exact hempty h'
    · exact hquoted h'
    · exact h h'
  unfold ownersOf
  by_cases howned : ∀ unit ∈ units, ¬ unit.Owns globs path
  · -- nothing owns the path: the openly opaque units may read it
    rw [if_neg (not_not.mpr (filter_ids_eq_empty_iff.mpr howned))]
    have hkeep : ∀ unit ∈ units, (!ownsPath globs (globs.compiled unit) path
        && (globs.compiled unit).isOpenlyOpaque) = true ↔ unit.OpenlyOpaque globs := by
      intro unit hunit
      rw [Bool.eq_false_iff.mpr (howned unit hunit)]
      exact Iff.rfl
    have hreads : ∀ unit ∈ units, unit.Reads globs units path ↔ unit.OpenlyOpaque globs := by
      intro unit hunit
      exact ⟨fun h => h.elim (fun howns => absurd howns (howned unit hunit)) And.right,
        fun h => .inr ⟨howned, h⟩⟩
    by_cases hclosed : ∀ unit ∈ units, ¬ unit.OpenlyOpaque globs
    · rw [if_pos (filter_ids_eq_empty_iff.mpr fun unit hunit =>
        mt (hkeep unit hunit).mp (hclosed unit hunit))]
      refine ⟨hprovable fun h => ?_, fun unit hunit hread => ?_⟩
      · obtain ⟨unit, hunit⟩ := exists_mem_of_ne_nil units h.1
        exact hclosed unit hunit (h.2 unit hunit).2
      · exact hclosed unit hunit ((hreads unit hunit).mp hread)
    rw [if_neg fun hnone => hclosed fun unit hunit hopen =>
      filter_ids_eq_empty_iff.mp hnone unit hunit ((hkeep unit hunit).mpr hopen)]
    by_cases hall : ∀ unit ∈ units, unit.OpenlyOpaque globs
    · rw [if_pos ((card_filter_ids_eq_iff hids _).mpr fun unit hunit =>
        (hkeep unit hunit).mpr (hall unit hunit))]
      refine .inr (.inr ⟨?_, fun unit hunit => ⟨howned unit hunit, hall unit hunit⟩⟩)
      rintro rfl
      exact hclosed fun _ h => absurd h not_mem_nil
    · rw [if_neg fun hcard => hall fun unit hunit =>
        (hkeep unit hunit).mp ((card_filter_ids_eq_iff hids _).mp hcard unit hunit)]
      refine ⟨hprovable fun h => hall fun unit hunit => (h.2 unit hunit).2, fun id => ?_⟩
      rw [mem_filter_ids]
      refine exists_congr fun unit => and_congr_right fun hunit => and_congr_right fun _ => ?_
      rw [hkeep unit hunit, hreads unit hunit]
  · rw [if_pos fun hnone => howned (filter_ids_eq_empty_iff.mp hnone)]
    refine ⟨hprovable fun h => howned fun unit hunit => (h.2 unit hunit).1, fun id => ?_⟩
    rw [mem_filter_ids]
    refine exists_congr fun unit => and_congr_right fun _ => and_congr_right fun _ => ?_
    exact ⟨.inl, fun h => h.resolve_right fun h => howned h.1⟩

/-! ## The loop over the changed paths -/

theorem mem_keys_recordAll {ids : List Str} :
    id ∈ (hits.recordAll item ids).keys ↔ id ∈ hits.keys ∨ id ∈ ids := by
  unfold Hits.recordAll
  induction ids generalizing hits with
  | nil => simp
  | cons _ _ ih =>
    rw [foldl_cons, ih, Hits.record, OrderedMap.mem_keys_insert, mem_cons]
    tauto

theorem mem_keys_recordPathHits {ids : Finset Str}
    (hunits : ∀ id ∈ ids, ∃ unit ∈ units, unit.id = id) :
    id ∈ (recordPathHits (units.map globs.compiled) hits ids item).keys ↔
      id ∈ hits.keys ∨ id ∈ ids := by
  unfold recordPathHits
  rw [mem_keys_recordAll, mem_filter, inOrder, Finset.mem_sort]
  refine or_congr_right ⟨And.left, fun hid => ⟨hid, ?_⟩⟩
  obtain ⟨unit, hunit, rfl⟩ := hunits id hid
  exact any_eq_true.mpr ⟨globs.compiled unit, mem_map_of_mem hunit, decide_eq_true rfl⟩

theorem Progress.mem_direct :
    id ∈ progress.direct ↔ id ∈ progress.hits.keys ∨ id ∈ progress.kindHits.keys := by
  rw [direct, mem_toFinset, mem_append]

/-- One path: it selects every unit, or adds the units it selects. -/
theorem Progress.visit_spec (globs : Globs) (hids : (units.map WatchedUnit.id).Nodup)
    (progress : Progress) (candidate : EffectiveMatch) :
    match progress.visit globs (units.map globs.compiled) candidate with
    | .error _ => SelectsEverything globs units candidate.path
    | .ok after => ¬ SelectsEverything globs units candidate.path
        ∧ ∀ id, id ∈ after.direct ↔ id ∈ progress.direct
          ∨ ∃ unit ∈ units, unit.id = id ∧ Selects globs units candidate.path unit := by
  unfold visit SelectsEverything Selects
  cases githubVerdict candidate.path with
  | some verdict =>
    cases verdict with
    | everything => trivial
    | unknown => trivial
    | releaseScope => exact ⟨not_false, fun id => by simp⟩
    | kind =>
      refine ⟨not_false, fun id => ?_⟩
      rw [mem_direct, mem_direct, mem_keys_recordAll, ← or_assoc]
      exact or_congr_right (mem_toFinset.symm.trans mem_filter_ids)
  | none =>
    have hspec := classifyPath_spec globs hids candidate.path
    cases hverdict : classifyPath globs (units.map globs.compiled) candidate.path with
    | owned ids | widened ids =>
      rw [hverdict] at hspec
      refine ⟨hspec.1, fun id => ?_⟩
      have hunits : ∀ id ∈ ids, ∃ unit ∈ units, unit.id = id := by
        intro id hid
        obtain ⟨unit, hunit, heq, -⟩ := (hspec.2 id).mp hid
        exact ⟨unit, hunit, heq⟩
      rw [mem_direct, mem_direct]
      rw [mem_keys_recordPathHits hunits, or_right_comm, hspec.2 id]
    | unknown =>
      rw [hverdict] at hspec
      exact hspec
    | irrelevant =>
      rw [hverdict] at hspec
      refine ⟨hspec.1, fun id => ⟨.inl, fun h => h.resolve_right ?_⟩⟩
      rintro ⟨unit, hunit, -, hreads⟩
      exact hspec.2 unit hunit hreads

theorem Progress.visits_spec (globs : Globs) (hids : (units.map WatchedUnit.id).Nodup)
    (candidates : List EffectiveMatch) (progress : Progress) :
    match candidates.foldlM (visit globs (units.map globs.compiled)) progress with
    | .error _ => ∃ candidate ∈ candidates, SelectsEverything globs units candidate.path
    | .ok after => (∀ candidate ∈ candidates, ¬ SelectsEverything globs units candidate.path)
        ∧ ∀ id, id ∈ after.direct ↔ id ∈ progress.direct ∨ ∃ candidate ∈ candidates,
          ∃ unit ∈ units, unit.id = id ∧ Selects globs units candidate.path unit := by
  induction candidates generalizing progress with
  | nil => exact ⟨fun _ h => absurd h not_mem_nil, fun id => by simp⟩
  | cons first candidates ih =>
    have hfirst := progress.visit_spec globs hids first
    rw [foldlM_cons]
    cases hvisit : progress.visit globs (units.map globs.compiled) first with
    | error =>
      rw [hvisit] at hfirst
      exact ⟨first, mem_cons_self, hfirst⟩
    | ok after =>
      rw [hvisit] at hfirst
      have hrest := ih after
      show match candidates.foldlM (visit globs (units.map globs.compiled)) after with
        | .error _ => _
        | .ok _ => _
      cases hfold : candidates.foldlM (visit globs (units.map globs.compiled)) after with
      | error =>
        rw [hfold] at hrest
        obtain ⟨candidate, hcandidate, hselects⟩ := hrest
        exact ⟨candidate, mem_cons_of_mem _ hcandidate, hselects⟩
      | ok =>
        rw [hfold] at hrest
        refine ⟨forall_mem_cons.mpr ⟨hfirst.1, hrest.1⟩, fun id => ?_⟩
        rw [hrest.2 id, hfirst.2 id, or_assoc]
        simp only [mem_cons, or_and_right, exists_or, exists_eq_left]

/-! ## The required set -/

theorem mem_next_dependents {dependent : Str} :
    dependent ∈ (dependents units).next id ↔ DependsOn units dependent id := by
  simp only [dependents, mem_map, mem_filter, decide_eq_true_eq]
  exact exists_congr fun unit => by tauto

/-- The closure holds what depends, through some chain, on a changed id. -/
theorem mem_required_iff {changed : Finset Str} :
    id ∈ (expandSelectionClosure units changed).required ↔
      ∃ root ∈ changed, Relation.ReflTransGen (DependsOn units) id root := by
  show id ∈ (Worklist.closure (dependents units) changed).seen ↔ _
  rw [Worklist.mem_seen_closure_iff]
  refine exists_congr fun root => and_congr_right fun _ => ?_
  rw [← Relation.reflTransGen_swap]
  exact iff_of_eq (congrArg (Relation.ReflTransGen · id root)
    (funext₂ fun a b => propext mem_next_dependents))

/-- What depends on a unit of the table is a unit of the table. -/
theorem id_mem_of_dependsOn (hunit : unit ∈ units)
    (h : Relation.ReflTransGen (DependsOn units) id unit.id) :
    id ∈ (units.map WatchedUnit.id).toFinset := by
  rcases Relation.ReflTransGen.cases_head h with rfl | ⟨_, ⟨_, hother, rfl, -⟩, -⟩
  · exact mem_toFinset.mpr (mem_map_of_mem hunit)
  · exact mem_toFinset.mpr (mem_map_of_mem hother)

section

variable (globs units changes)

/-- Every owner of a changed path, with all that depends on it, is required. -/
def MissesNoOwner (required : Finset Str) : Prop :=
  ∀ path ∈ effectivePaths changes, ∀ unit ∈ units, unit.Owns globs path →
    ∀ id, Relation.ReflTransGen (DependsOn units) id unit.id → id ∈ required

/-- A changed path has a global name or selects every unit. -/
def FallsBack (globalPrefixes : List Str) : Prop :=
  ∃ path ∈ effectivePaths changes,
    (∃ parent ∈ globalPrefixes, parent <+: path) ∨ SelectsEverything globs units path

/-- Every owner of a path that is classified by its name alone is, or depends
    on, a unit that some changed path selects. -/
def OwnersReached : Prop :=
  ∀ path ∈ effectivePaths changes, NarrowedByName path →
    ∀ unit ∈ units, unit.Owns globs path →
      ∃ other ∈ units, (∃ changed ∈ effectivePaths changes, Selects globs units changed other)
        ∧ Relation.ReflTransGen (DependsOn units) unit.id other.id

end

theorem selects_of_owns {path : Str} (howns : unit.Owns globs path)
    (hnarrow : ¬ NarrowedByName path) (hsome : ¬ SelectsEverything globs units path) :
    Selects globs units path unit := by
  unfold NarrowedByName at hnarrow
  unfold SelectsEverything at hsome
  unfold Selects
  cases hverdict : githubVerdict path with
  | none => exact .inl howns
  | some verdict =>
    rw [hverdict] at hnarrow hsome
    cases verdict with
    | everything => exact absurd trivial hsome
    | unknown => exact absurd trivial hsome
    | releaseScope => exact absurd (.inl rfl) hnarrow
    | kind kind => exact absurd (.inr ⟨kind, rfl⟩) hnarrow

theorem missesNoOwner_fallback (changes : List ChangedPath) (reason : Str) :
    MissesNoOwner globs units changes (fallbackSelection units reason).required :=
  fun _ _ _ hunit _ _ h => id_mem_of_dependsOn hunit h

/-- A selection by matching misses no owner exactly when the owners of the
    paths classified by name are reached otherwise. -/
theorem missesNoOwner_finish_iff
    (hnarrow : ∀ path ∈ effectivePaths changes, ¬ SelectsEverything globs units path)
    (hdirect : ∀ id, id ∈ progress.direct ↔
      ∃ path ∈ effectivePaths changes,
        ∃ unit ∈ units, unit.id = id ∧ Selects globs units path unit) :
    MissesNoOwner globs units changes (finishSelection units progress).required ↔
      OwnersReached globs units changes := by
  have hrequired : ∀ id, id ∈ (finishSelection units progress).required ↔
      ∃ other ∈ units, (∃ path ∈ effectivePaths changes, Selects globs units path other)
        ∧ Relation.ReflTransGen (DependsOn units) id other.id := by
    intro id
    show id ∈ (expandSelectionClosure units progress.direct).required ↔ _
    rw [mem_required_iff]
    constructor
    · rintro ⟨root, hroot, hreach⟩
      obtain ⟨path, hpath, unit, hunit, rfl, hselects⟩ := (hdirect root).mp hroot
      exact ⟨unit, hunit, ⟨path, hpath, hselects⟩, hreach⟩
    · rintro ⟨unit, hunit, ⟨path, hpath, hselects⟩, hreach⟩
      exact ⟨unit.id, (hdirect _).mpr ⟨path, hpath, unit, hunit, rfl, hselects⟩, hreach⟩
  constructor
  · intro h path hpath _ unit hunit howns
    exact (hrequired unit.id).mp (h path hpath unit hunit howns unit.id .refl)
  intro h path hpath unit hunit howns _ hreach
  rw [hrequired]
  by_cases hname : NarrowedByName path
  · obtain ⟨other, hother, hselected, hchain⟩ := h path hpath hname unit hunit howns
    exact ⟨other, hother, hselected, hreach.trans hchain⟩
  · have hselects := selects_of_owns howns hname (hnarrow path hpath)
    exact ⟨unit, hunit, ⟨path, hpath, hselects⟩, hreach⟩

theorem exists_mem_effectivePaths {p : Str → Prop} :
    (∃ candidate ∈ effectiveMatches changes, p candidate.path) ↔
      ∃ path ∈ effectivePaths changes, p path := by
  simp [effectivePaths]

/-- For a table with distinct ids and valid globs the selection is made, and it
    misses no owner exactly when it falls back to every unit or the owners of
    the paths classified by name are reached otherwise. -/
theorem selectAffected_missesNoOwner_iff (globs : Globs) (units : List WatchedUnit)
    (changes : List ChangedPath) (globalPrefixes : List Str)
    (hids : (units.map WatchedUnit.id).Nodup) (htakes : ∀ unit ∈ units, globs.Takes unit) :
    ∃ selection, selectAffected globs units changes globalPrefixes = .ok selection
      ∧ (MissesNoOwner globs units changes selection.required ↔
        FallsBack globs units changes globalPrefixes ∨ OwnersReached globs units changes) := by
  unfold selectAffected
  rw [duplicateId_eq_none hids ∅ fun _ _ => Finset.notMem_empty _]
  by_cases hempty : effectiveMatches changes = []
  · have hpaths : effectivePaths changes = [] := by rw [effectivePaths, hempty]; rfl
    rw [if_pos hempty]
    refine ⟨_, rfl, iff_of_true (fun path hpath => ?_) (.inr fun path hpath => ?_)⟩
    all_goals
      rw [hpaths] at hpath
      cases hpath
  rw [if_neg hempty, compileOwnership_ok htakes]
  cases hglobal : ((effectiveMatches changes).map EffectiveMatch.path).find? fun path =>
      globalPrefixes.any fun parent => parent.isPrefixOf path with
  | some path =>
    refine ⟨_, rfl, iff_of_true (missesNoOwner_fallback changes _) (.inl ?_)⟩
    have hany := find?_some hglobal
    obtain ⟨parent, hparent, hprefix⟩ := any_eq_true.mp hany
    exact ⟨path, mem_of_find?_eq_some hglobal,
      .inl ⟨parent, hparent, isPrefixOf_iff_prefix.mp hprefix⟩⟩
  | none =>
    dsimp only
    have hspec := visits_spec globs hids (effectiveMatches changes) .initial
    cases hvisits : (effectiveMatches changes).foldlM
        (visit globs (units.map globs.compiled)) .initial with
    | error _ =>
      rw [hvisits] at hspec
      obtain ⟨path, hpath, hselects⟩ := exists_mem_effectivePaths.mp hspec
      exact ⟨_, rfl, iff_of_true (missesNoOwner_fallback changes _)
        (.inl ⟨path, hpath, .inr hselects⟩)⟩
    | ok progress =>
      rw [hvisits] at hspec
      have hnarrow : ∀ path ∈ effectivePaths changes, ¬ SelectsEverything globs units path := by
        intro _ hpath
        obtain ⟨candidate, hcandidate, rfl⟩ := mem_map.mp hpath
        exact hspec.1 candidate hcandidate
      have hdirect : ∀ id, id ∈ progress.direct ↔ ∃ path ∈ effectivePaths changes,
          ∃ unit ∈ units, unit.id = id ∧ Selects globs units path unit := by
        intro id
        rw [hspec.2 id, ← exists_mem_effectivePaths]
        exact or_iff_right (Finset.notMem_empty id)
      refine ⟨_, rfl, (missesNoOwner_finish_iff hnarrow hdirect).trans ?_⟩
      refine (or_iff_right ?_).symm
      rintro ⟨path, hpath, ⟨parent, hparent, hprefix⟩ | hselects⟩
      · refine find?_eq_none.mp hglobal path hpath ?_
        exact any_eq_true.mpr ⟨parent, hparent, isPrefixOf_iff_prefix.mpr hprefix⟩
      · exact hnarrow path hpath hselects

/-- Patterns that match themselves. -/
def literalGlobs : Globs := ⟨fun _ => none, fun _ => none, fun pattern path => pattern == path⟩

/-- A Rust unit without dependencies or commands. -/
def unitWatching (id path : Str) : WatchedUnit := ⟨id, [path], [], "rust", [], false⟩

def modified (path : Str) : ChangedPath := ⟨path, none, .modified⟩

/-- `site` depends on `app` and `app` on `core`; `app` watches the release
    workflow. -/
def chainedUnits : List WatchedUnit := [
  unitWatching "core" "src/lib.rs",
  { unitWatching "app" ".github/workflows/release.yml" with
    dependsOn := ["core"] },
  { unitWatching "site" "docs/index.md" with dependsOn := ["app"] }]

/-- The source of `core` and the release workflow. -/
def chainedChanges : List ChangedPath :=
  [modified "src/lib.rs", modified ".github/workflows/release.yml"]

/-- The owner of the release workflow is reached through `core`, on which it
    depends. -/
theorem selectAffected_missesNoOwner_of_chain :
    ∃ selection, selectAffected literalGlobs chainedUnits chainedChanges [] = .ok selection
      ∧ MissesNoOwner literalGlobs chainedUnits chainedChanges selection.required := by
  obtain ⟨selection, hok, hiff⟩ := selectAffected_missesNoOwner_iff literalGlobs chainedUnits
    chainedChanges [] (by decide) (fun _ _ => ⟨fun _ _ => rfl, rfl, rfl, rfl⟩)
  refine ⟨selection, hok, hiff.mpr (.inr fun path hpath hname unit hunit howns => ?_)⟩
  have hsource : githubVerdict "src/lib.rs" = none := by decide +kernel
  have hcore : Selects literalGlobs chainedUnits "src/lib.rs"
      (unitWatching "core" "src/lib.rs") := by
    unfold Selects
    rw [hsource]
    exact .inl (by decide +kernel)
  rcases mem_pair.mp hpath with rfl | rfl
  · rcases hname with hrelease | ⟨_, hkind⟩
    · cases hsource.symm.trans hrelease
    · cases hsource.symm.trans hkind
  rcases mem_cons.mp hunit with rfl | hunit
  · exact absurd howns (by decide +kernel)
  rcases mem_pair.mp hunit with rfl | rfl
  · exact ⟨_, mem_cons_self, ⟨_, mem_cons_self, hcore⟩,
      .single ⟨_, mem_cons_of_mem _ mem_cons_self, rfl, mem_cons_self⟩⟩
  · exact absurd howns (by decide +kernel)

/-- A unit that watches the release workflow is not selected when only the
    release workflow changes. -/
theorem selectAffected_misses_release_owner :
    (unitWatching "policy" ".github/workflows/release.yml").Owns literalGlobs
        ".github/workflows/release.yml"
      ∧ ((selectAffected literalGlobs
          [unitWatching "policy" ".github/workflows/release.yml"]
          [modified ".github/workflows/release.yml"] []).map (·.required)).toOption =
        some ∅ := by
  decide +kernel

end Velnor.Workflow
