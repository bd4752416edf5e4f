/-
  The ids of a flattened plan.  A nested step's id is the path of segments that
  lead to it, joined by dashes, and a segment may hold dashes itself: `build`
  with a step `test` inside and a sibling `build-test` give one id twice.

  Two steps have one id exactly when, in the scope where their paths part, one
  segment goes on from the other's by a dash and the beginning of a path inside
  it.  `Unambiguous` says that no scope has such a pair.
-/
import Velnor.Composite.Definition
import Velnor.Text.Decimal

namespace Velnor.Composite

open Executor Expression Expression.LexicalAnalyzer Text List JobStep

/-! ## Segments -/

section Segments

variable {value parent : Str} {id : Option Str} {index : Nat}

theorem continuesWord_of_startsWord {c : Char} (h : startsWord c = true) :
    continuesWord c = true := by
  simp only [startsWord, Bool.or_eq_true_iff] at h
  simp only [continuesWord, Char.isAlphanum, Bool.or_eq_true_iff]
  exact .inl (h.imp_left .inl)

theorem continuesWord_legalCharacter (c : Char) : continuesWord (legalCharacter c) = true := by
  unfold legalCharacter
  split
  next h => rwa [continuesWord, Bool.or_right_comm]
  next => decide

theorem isLegalKeyword_iff :
    isLegalKeyword value = true ↔
      (∃ c ∈ value.head?, startsWord c = true) ∧ ∀ c ∈ value, continuesWord c = true := by
  cases value with
  | nil => simp [isLegalKeyword]
  | cons c =>
    rw [isLegalKeyword_cons, forall_mem_cons]
    constructor
    · rintro ⟨hc, hrest⟩
      exact ⟨⟨c, rfl, hc⟩, continuesWord_of_startsWord hc, hrest⟩
    · rintro ⟨⟨_, hd, hstart⟩, -, hrest⟩
      cases hd
      exact ⟨hstart, hrest⟩

theorem expressionLegalSegment_of_legal (h : isLegalKeyword value = true) :
    expressionLegalSegment value = value := by
  obtain ⟨⟨_, hfirst, hstart⟩, hall⟩ := isLegalKeyword_iff.mp h
  have hmap : value.map legalCharacter = value :=
    (map_congr_left fun c hc => if_pos (Bool.or_right_comm .. ▸ hall c hc)).trans (map_id value)
  unfold expressionLegalSegment
  rw [hmap]
  cases value with
  | nil => rfl
  | cons =>
    cases hfirst
    exact if_pos hstart

/-- Only an empty id stays without a word. -/
theorem isLegalKeyword_expressionLegalSegment (h : value ≠ []) :
    isLegalKeyword (expressionLegalSegment value) = true := by
  cases value with
  | nil => exact absurd rfl h
  | cons c rest =>
    have hall : ∀ d ∈ (c :: rest).map legalCharacter, continuesWord d = true := by
      intro _ hd
      obtain ⟨c, -, rfl⟩ := mem_map.mp hd
      exact continuesWord_legalCharacter c
    unfold expressionLegalSegment
    rw [map_cons] at ⊢
    dsimp only
    split_ifs with hstart
    · exact isLegalKeyword_cons.mpr ⟨hstart, (forall_mem_cons.mp hall).2⟩
    · exact isLegalKeyword_cons.mpr ⟨by decide, hall⟩

theorem continuesWord_of_mem_expressionLegalSegment :
    ∀ c ∈ expressionLegalSegment value, continuesWord c = true := by
  cases value with
  | nil => nofun
  | cons c rest =>
    exact (isLegalKeyword_iff.mp (isLegalKeyword_expressionLegalSegment (cons_ne_nil c rest))).2

/-- A step's part of the path: its id, or its position where the id is missing or
    would leave a dash at the end. -/
def segment (id : Option Str) (index : Nat) : Str :=
  match (id.map expressionLegalSegment).filter fun value =>
      value ≠ [] ∧ value.getLast? ≠ some '-' with
  | some value => value
  | none => Nat.toDigits 10 (index + 1)

theorem compositeStepId_eq :
    compositeStepId parent id index = expressionLegalSegment parent ++ '-' :: segment id index := by
  have hlast : ∀ value : Str,
      (expressionLegalSegment parent ++ '-' :: value).getLast? ≠ some '-' ↔
        value ≠ [] ∧ value.getLast? ≠ some '-' := by
    intro value
    cases value with
    | nil => simp
    | cons =>
      simp
  unfold compositeStepId segment
  cases id with
  | none => rfl
  | some =>
    simp only [Option.map_some, Option.filter_some, hlast]
    split_ifs <;> rfl

theorem segment_eq_or (id : Option Str) (index : Nat) :
    (∃ name ∈ id, segment id index = expressionLegalSegment name ∧
        expressionLegalSegment name ≠ []) ∨
      segment id index = Nat.toDigits 10 (index + 1) := by
  unfold segment
  cases id with
  | none => exact .inr rfl
  | some name =>
    simp only [Option.map_some, Option.filter_some, decide_eq_true_eq]
    split_ifs with h
    · exact .inl ⟨name, rfl, rfl, h.1⟩
    · exact .inr rfl

theorem continuesWord_of_mem_segment : ∀ c ∈ segment id index, continuesWord c = true := by
  intro c hc
  rcases segment_eq_or id index with ⟨_, -, heq, -⟩ | heq
  · exact continuesWord_of_mem_expressionLegalSegment c (heq ▸ hc)
  · have hdigit := isDigit_of_mem_toDigits (heq ▸ hc)
    simp [continuesWord, Char.isAlphanum, hdigit]

theorem isLegalKeyword_join {name : Str} (hparent : isLegalKeyword parent = true)
    (hname : ∀ c ∈ name, continuesWord c = true) :
    isLegalKeyword (parent ++ '-' :: name) = true := by
  obtain ⟨⟨first, hfirst, hstart⟩, hall⟩ := isLegalKeyword_iff.mp hparent
  refine isLegalKeyword_iff.mpr ⟨⟨first, ?_, hstart⟩, ?_⟩
  · cases parent with
    | nil => cases hfirst
    | cons => exact hfirst
  · exact forall_mem_append.mpr ⟨hall, forall_mem_cons.mpr ⟨by decide, hname⟩⟩

/-- Below the job's own level ids are words already. -/
theorem expressionLegalSegment_compositeStepId (h : parent ≠ []) :
    expressionLegalSegment (compositeStepId parent id index) = compositeStepId parent id index := by
  rw [compositeStepId_eq]
  exact expressionLegalSegment_of_legal
    (isLegalKeyword_join (isLegalKeyword_expressionLegalSegment h) continuesWord_of_mem_segment)

theorem compositeStepId_ne_nil : compositeStepId parent id index ≠ [] := by
  rw [compositeStepId_eq]
  exact append_ne_nil_of_right_ne_nil _ (cons_ne_nil _ _)

theorem length_le_expressionLegalSegment (value : Str) :
    value.length ≤ (expressionLegalSegment value).length := by
  cases value with
  | nil => exact Nat.le_refl _
  | cons =>
    unfold expressionLegalSegment
    rw [map_cons]
    dsimp only
    split_ifs <;> simp

end Segments

/-! ## Scopes -/

/-- A step of a scope: its segment, whether the plan has an id for it, and the
    paths of the steps inside it. -/
structure Entry where
  segment : Str
  recorded : Bool
  inner : List Str
  deriving DecidableEq, Repr

namespace Entry

def names (entry : Entry) : List Str :=
  (if entry.recorded then [entry.segment] else [])
    ++ entry.inner.map fun path => entry.segment ++ '-' :: path

/-- The other segment goes on from this one by a dash and some `continuation`,
    and a path in this step begins with that and leads on as one of the other
    step does. -/
def shadows (entry other : Entry) : Bool :=
  match other.segment.dropPrefix? (entry.segment ++ ['-']) with
  | none => false
  | some continuation =>
    { other with segment := continuation }.names.any fun path => decide (path ∈ entry.inner)

end Entry

namespace Steps

/-- The steps of one scope with the paths inside them.  A local action has an id
    in the plan only by its outputs step. -/
def entries (index : Nat) : Steps → List Entry
  | done => []
  | leaf header runs rest =>
    ⟨segment header.id index, runs ≠ .nothing, []⟩ :: rest.entries (index + 1)
  | localAction header inner outputs rest =>
    ⟨segment header.id index, outputs, (inner.entries 0).flatMap Entry.names⟩
      :: rest.entries (index + 1)
  | repository header inner _ rest =>
    ⟨segment header.id index, true, (inner.entries 0).flatMap Entry.names⟩
      :: rest.entries (index + 1)

/-- The ids the steps of one scope have in its definition. -/
def ids : Steps → List Str
  | done => []
  | leaf header _ rest => header.id.toList ++ rest.ids
  | localAction header _ _ rest => header.id.toList ++ rest.ids
  | repository header _ _ rest => header.id.toList ++ rest.ids

def LegalScope (steps : Steps) : Prop :=
  (∀ id ∈ steps.ids, isLegalKeyword id = true) ∧ steps.ids.Nodup

instance (steps : Steps) : Decidable steps.LegalScope := inferInstanceAs (Decidable (_ ∧ _))

end Steps

/-- No step of the scope shadows another one. -/
def Apart (entries : List Entry) : Prop :=
  entries.Pairwise fun entry other => entry.shadows other = false ∧ other.shadows entry = false

instance (entries : List Entry) : Decidable (Apart entries) :=
  inferInstanceAs (Decidable (List.Pairwise _ _))

def JobStep.entry (step : JobStep) : Entry where
  segment := expressionLegalSegment step.stepId
  recorded := expressionLegalSegment step.stepId = step.stepId
  inner := match step with
    | .action _ => []
    | .composite _ none => []
    | .composite _ (some (steps, _)) => (steps.entries 0).flatMap Entry.names

namespace Job

/-- In every definition the step ids are words and distinct.  A job's own step
    may have a generated id that is none; those ids are distinct as words. -/
structure LegalIds (job : Job) : Prop where
  nonempty : ∀ step ∈ job, step.stepId ≠ []
  distinct : (job.map fun step => expressionLegalSegment step.stepId).Nodup
  scopes : ∀ steps ∈ job.scopes, steps.LegalScope

/-- No scope, of the job or of a definition, has a step that shadows another. -/
def Unambiguous (job : Job) : Prop :=
  Apart (job.map JobStep.entry) ∧ ∀ steps ∈ job.scopes, Apart (steps.entries 0)

instance (job : Job) : Decidable job.Unambiguous := inferInstanceAs (Decidable (_ ∧ _))

end Job

/-! ## Where names meet -/

namespace Entry

variable {entry other : Entry} {name : Str}

/-- A name is the segment, alone or with a path behind a dash. -/
theorem mem_names : name ∈ entry.names ↔ ∃ tail, name = entry.segment ++ tail ∧
    (tail = [] ∧ entry.recorded = true ∨ ∃ path ∈ entry.inner, tail = '-' :: path) := by
  unfold names
  rw [mem_append, mem_map]
  constructor
  · rintro (h | ⟨path, hpath, rfl⟩)
    · split at h
      next hrecorded =>
        cases mem_singleton.mp h
        exact ⟨[], (append_nil _).symm, .inl ⟨rfl, hrecorded⟩⟩
      next => cases h
    · exact ⟨_, rfl, .inr ⟨path, hpath, rfl⟩⟩
  · rintro ⟨_, rfl, ⟨rfl, hrecorded⟩ | ⟨path, hpath, rfl⟩⟩
    · left
      rw [if_pos hrecorded, append_nil]
      exact mem_singleton_self _
    · exact .inr ⟨path, hpath, rfl⟩

theorem shadows_iff : entry.shadows other = true ↔ ∃ continuation,
    other.segment = entry.segment ++ '-' :: continuation ∧
      ∃ path ∈ { other with segment := continuation }.names, path ∈ entry.inner := by
  have hdrop : ∀ continuation, other.segment = entry.segment ++ '-' :: continuation ↔
      other.segment.dropPrefix? (entry.segment ++ ['-']) = some continuation := by
    simp [dropPrefix?_eq_some_iff]
  simp only [shadows, hdrop]
  cases other.segment.dropPrefix? (entry.segment ++ ['-']) with
  | none => simp
  | some => simp

/-- The shadowed step has a name of the other one. -/
theorem names_meet_of_shadows (h : entry.shadows other = true) :
    ∃ name ∈ entry.names, name ∈ other.names := by
  obtain ⟨continuation, hsegment, _, hpath, hinner⟩ := shadows_iff.mp h
  obtain ⟨tail, rfl, htail⟩ := mem_names.mp hpath
  refine ⟨entry.segment ++ '-' :: (continuation ++ tail),
    mem_names.mpr ⟨_, rfl, .inr ⟨_, hinner, rfl⟩⟩, mem_names.mpr ⟨tail, ?_, htail⟩⟩
  rw [hsegment, append_assoc, cons_append]

/-- The longer segment goes on where the shorter one has its dash. -/
theorem shadows_of_append_eq {rest tail otherTail : Str}
    (htail : tail = [] ∧ entry.recorded = true ∨ ∃ path ∈ entry.inner, tail = '-' :: path)
    (hother : otherTail = [] ∧ other.recorded = true
      ∨ ∃ path ∈ other.inner, otherTail = '-' :: path)
    (hsegment : other.segment = entry.segment ++ rest) (hrest : rest ≠ [])
    (heq : tail = rest ++ otherTail) : entry.shadows other = true := by
  rcases htail with ⟨rfl, -⟩ | ⟨path, hpath, rfl⟩
  · exact absurd (append_eq_nil_iff.mp heq.symm).1 hrest
  cases rest with
  | nil => exact absurd rfl hrest
  | cons _ continuation =>
    injection heq with hdash hpathEq
    subst hdash hpathEq
    exact shadows_iff.mpr ⟨continuation, hsegment, _, mem_names.mpr ⟨_, rfl, hother⟩, hpath⟩

/-- Names of two steps of a scope meet by a shadow only. -/
theorem disjoint_names_iff (hne : entry.segment ≠ other.segment) :
    entry.names.Disjoint other.names ↔
      entry.shadows other = false ∧ other.shadows entry = false := by
  constructor
  · intro hdisjoint
    refine ⟨Bool.eq_false_iff.mpr fun h => ?_, Bool.eq_false_iff.mpr fun h => ?_⟩
    · obtain ⟨_, hentry, hother⟩ := names_meet_of_shadows h
      exact hdisjoint hentry hother
    · obtain ⟨_, hother, hentry⟩ := names_meet_of_shadows h
      exact hdisjoint hentry hother
  · rintro ⟨hleft, hright⟩ _ hname hname'
    obtain ⟨_, rfl, htail⟩ := mem_names.mp hname
    obtain ⟨_, heq, hother⟩ := mem_names.mp hname'
    rcases append_eq_append_iff.mp heq with ⟨rest, hsegment, hrest⟩ | ⟨rest, hsegment, hrest⟩
    · have hnil : rest ≠ [] := fun h => hne (by rw [hsegment, h, append_nil])
      exact absurd (shadows_of_append_eq htail hother hsegment hnil hrest)
        (Bool.eq_false_iff.mp hleft)
    · have hnil : rest ≠ [] := fun h => hne (by rw [hsegment, h, append_nil])
      exact absurd (shadows_of_append_eq hother htail hsegment hnil hrest)
        (Bool.eq_false_iff.mp hright)

theorem nodup_names : entry.names.Nodup ↔ entry.inner.Nodup := by
  have hinjective : Function.Injective fun path : Str => entry.segment ++ '-' :: path :=
    fun _ _ h => (cons.inj (append_cancel_left h)).2
  have hself : ∀ path ∈ entry.inner, entry.segment ++ '-' :: path ≠ entry.segment := by
    intro _ _ h
    exact cons_ne_nil _ _ (append_right_eq_self.mp h)
  unfold names
  split
  · rw [singleton_append, nodup_cons, nodup_map_iff hinjective, and_iff_right_iff_imp, mem_map]
    rintro - ⟨path, hpath, heq⟩
    exact hself path hpath heq
  · rw [nil_append, nodup_map_iff hinjective]

end Entry

/-- Names within one scope. -/
theorem nodup_flatMap_names {entries : List Entry} (h : (entries.map Entry.segment).Nodup) :
    (entries.flatMap Entry.names).Nodup ↔
      (∀ entry ∈ entries, entry.inner.Nodup) ∧ Apart entries := by
  rw [nodup_flatMap]
  refine and_congr (forall₂_congr fun entry _ => Entry.nodup_names) ?_
  rw [List.Nodup, pairwise_map] at h
  constructor
  · intro hdisjoint
    exact (hdisjoint.and h).imp fun h => (Entry.disjoint_names_iff h.2).mp h.1
  · intro hapart
    exact (List.Pairwise.and hapart h).imp fun h => (Entry.disjoint_names_iff h.2).mpr h.1

/-! ## Definitions with legal ids -/

namespace Steps

variable {steps : Steps} {parent : StepId}

theorem mem_segments {index : Nat} {value : Str}
    (h : value ∈ (steps.entries index).map Entry.segment) :
    (∃ id ∈ steps.ids, value = expressionLegalSegment id) ∨
      ∃ position, index ≤ position ∧ value = Nat.toDigits 10 (position + 1) := by
  induction steps generalizing index with
  | done => cases h
  | leaf header _ rest ih | localAction header _ _ rest _ ih | repository header _ _ rest _ ih =>
    rcases mem_cons.mp h with rfl | h
    · rcases segment_eq_or header.id index with ⟨id, hid, heq, -⟩ | heq
      · exact .inl ⟨id, mem_append_left _ (Option.mem_toList.mpr hid), heq⟩
      · exact .inr ⟨index, Nat.le_refl _, heq⟩
    · rcases ih h with ⟨id, hid, heq⟩ | ⟨position, hle, heq⟩
      · exact .inl ⟨id, mem_append_right _ hid, heq⟩
      · exact .inr ⟨position, Nat.le_of_succ_le hle, heq⟩

theorem toDigits_injective : Function.Injective (Nat.toDigits 10) := by
  intro _ _ h
  have hread := congrArg parseDigits? h
  rwa [parseDigits?_toDigits, parseDigits?_toDigits, Option.some_inj] at hread

/-- A word is no position. -/
theorem legal_ne_toDigits {id : Str} {position : Nat} (h : isLegalKeyword id = true) :
    id ≠ Nat.toDigits 10 position := by
  rintro rfl
  obtain ⟨⟨_, hfirst, hstart⟩, -⟩ := isLegalKeyword_iff.mp h
  have hdigit := isDigit_of_mem_toDigits (mem_of_mem_head? hfirst)
  rw [not_isDigit_of_startsWord hstart] at hdigit
  cases hdigit

variable {outputs : Bool} {stepId : StepId} {owner : Option StepId} (index : Nat)

theorem nodup_segments (h : steps.LegalScope) :
    ((steps.entries index).map Entry.segment).Nodup := by
  induction steps generalizing index with
  | done => exact nodup_nil
  | leaf header _ rest ih | localAction header _ _ rest _ ih | repository header _ _ rest _ ih =>
    obtain ⟨hlegal, hnodup⟩ := h
    have hrest : rest.LegalScope :=
      ⟨fun id hid => hlegal id (mem_append_right _ hid), hnodup.of_append_right⟩
    refine nodup_cons.mpr ⟨fun hmem => ?_, ih (index + 1) hrest⟩
    rcases segment_eq_or header.id index with ⟨id, hid, heq, -⟩ | heq
    · have hidMem := Option.mem_toList.mpr hid
      have hidLegal := hlegal id (mem_append_left _ hidMem)
      rw [heq, expressionLegalSegment_of_legal hidLegal] at hmem
      rcases mem_segments hmem with ⟨other, hother, hsame⟩ | ⟨position, -, hsame⟩
      · rw [expressionLegalSegment_of_legal (hrest.1 other hother)] at hsame
        exact (nodup_append.mp hnodup).2.2 id hidMem other hother hsame
      · exact legal_ne_toDigits hidLegal hsame
    · rw [heq] at hmem
      rcases mem_segments hmem with ⟨other, hother, hsame⟩ | ⟨position, _, hsame⟩
      · rw [expressionLegalSegment_of_legal (hrest.1 other hother)] at hsame
        exact legal_ne_toDigits (hrest.1 other hother) hsame.symm
      · have := toDigits_injective hsame
        omega

theorem nodup_inner_iff (h : ∀ scope ∈ steps.innerScopes, scope.LegalScope) :
    (∀ entry ∈ steps.entries index, entry.inner.Nodup) ↔
      ∀ scope ∈ steps.innerScopes, Apart (scope.entries 0) := by
  induction steps generalizing index with
  | done => exact ⟨nofun, nofun⟩
  | leaf _ _ _ ih =>
    rw [entries, forall_mem_cons, and_iff_right nodup_nil]
    exact ih (index + 1) h
  | localAction header inner outputs rest ihInner ih
  | repository _ _ _ _ ihInner ih =>
    obtain ⟨hown, hnested⟩ := forall_mem_cons.mp h
    obtain ⟨hnested, hrest⟩ := forall_mem_append.mp hnested
    rw [entries, forall_mem_cons, innerScopes, forall_mem_cons,
      forall_mem_append, ih (index + 1) hrest, ← and_assoc]
    refine and_congr_left fun _ => ?_
    rw [nodup_flatMap_names (nodup_segments 0 hown), and_comm, ihInner 0 hnested]

theorem continuesWord_of_mem_names :
    ∀ name ∈ (steps.entries index).flatMap Entry.names, ∀ c ∈ name, continuesWord c = true := by
  have head : ∀ (entry : Entry), (∀ c ∈ entry.segment, continuesWord c = true) →
      (∀ path ∈ entry.inner, ∀ c ∈ path, continuesWord c = true) →
      ∀ name ∈ entry.names, ∀ c ∈ name, continuesWord c = true := by
    intro _ hsegment hinner _ hname
    obtain ⟨_, rfl, htail⟩ := Entry.mem_names.mp hname
    refine forall_mem_append.mpr ⟨hsegment, ?_⟩
    rcases htail with ⟨rfl, -⟩ | ⟨path, hpath, rfl⟩
    · nofun
    · exact forall_mem_cons.mpr ⟨by decide, hinner path hpath⟩
  induction steps generalizing index with
  | done => nofun
  | leaf _ _ _ ih =>
    rw [entries, flatMap_cons, forall_mem_append]
    exact ⟨head _ continuesWord_of_mem_segment nofun, ih (index + 1)⟩
  | localAction header inner outputs rest ihInner ih
  | repository _ _ _ _ ihInner ih =>
    rw [entries, flatMap_cons, forall_mem_append]
    exact ⟨head _ continuesWord_of_mem_segment (ihInner 0), ih (index + 1)⟩

/-! ## The flattened plan -/

theorem ownIds_appendOutputs {rest : Plan} (h : owner ≠ some stepId) :
    (appendOutputs outputs stepId rest).ownIds owner =
      (if outputs then [stepId] else []) ++ rest.ownIds owner := by
  unfold appendOutputs
  split
  · exact if_neg h.symm
  · rfl

theorem ownIds_appendOutputs_self :
    (appendOutputs outputs stepId .done).ownIds (some stepId) = [] := by
  unfold appendOutputs
  split
  · exact if_pos rfl
  · rfl

/-- A path's id below the step `parent`. -/
def idBelow (parent : StepId) (path : Str) : StepId :=
  expressionLegalSegment parent ++ '-' :: path

/-- No path leads back to the step itself. -/
theorem ne_idBelow (parent : StepId) (path : Str) : some parent ≠ some (idBelow parent path) := by
  intro heq
  have hlength := congrArg length (Option.some.inj heq)
  have hle := length_le_expressionLegalSegment parent
  rw [idBelow, length_append, length_cons] at hlength
  omega

theorem idBelow_segment {id : Option Str} {index : Nat} :
    idBelow parent (segment id index) = compositeStepId parent id index :=
  compositeStepId_eq.symm

theorem idBelow_path (h : parent ≠ []) (id : Option Str) (index : Nat) (path : Str) :
    idBelow (compositeStepId parent id index) path =
      idBelow parent (segment id index ++ '-' :: path) := by
  rw [idBelow, expressionLegalSegment_compositeStepId h, ← idBelow_segment, idBelow, idBelow,
    append_assoc, cons_append]

theorem map_idBelow_names (h : parent ≠ []) (id : Option Str) (index : Nat)
    (recorded : Bool) (inner : List Str) :
    (Entry.names ⟨segment id index, recorded, inner⟩).map (idBelow parent) =
      (if recorded then [compositeStepId parent id index] else [])
        ++ inner.map (idBelow (compositeStepId parent id index)) := by
  have hinner : (inner.map fun path => segment id index ++ '-' :: path).map (idBelow parent) =
      inner.map (idBelow (compositeStepId parent id index)) := by
    rw [map_map]
    exact map_congr_left fun path _ => (idBelow_path h id index path).symm
  unfold Entry.names
  rw [map_append, hinner]
  split
  · rw [map_singleton, idBelow_segment]
  · rfl

/-- The plan's ids are the paths below the step that uses the definition.  No
    path leads back to a composite around it. -/
theorem ownIds_plan (hparent : parent ≠ []) (howner : ∀ path, owner ≠ some (idBelow parent path))
    (index : Nat) (tail : Plan) (steps : Steps) :
    ((steps.plan parent index tail).ownIds owner).Perm
      (((steps.entries index).flatMap Entry.names).map (idBelow parent) ++ tail.ownIds owner) := by
  induction steps generalizing owner parent index tail with
  | done => exact List.Perm.refl _
  | leaf header runs _ ih =>
    have hrest := ih hparent howner (index + 1) tail
    rw [entries, flatMap_cons, map_append, map_idBelow_names hparent]
    cases runs with
    | nothing => exact hrest
    | script | repository kind pre => exact hrest.cons (compositeStepId parent header.id index)
  | localAction header _ outputs rest ihInner ih =>
    have hbelow : ∀ path, owner ≠ some (idBelow (compositeStepId parent header.id index) path) := by
      intro _
      rw [idBelow_path hparent]
      exact howner _
    have hself : owner ≠ some (compositeStepId parent header.id index) := by
      rw [← idBelow_segment]
      exact howner _
    have hrest := ih hparent howner (index + 1) tail
    have hinner := ihInner compositeStepId_ne_nil hbelow 0
      (appendOutputs outputs (compositeStepId parent header.id index)
        (rest.plan parent (index + 1) tail))
    rw [ownIds_appendOutputs hself, ← append_assoc] at hinner
    rw [entries, flatMap_cons, map_append, map_idBelow_names hparent, append_assoc]
    exact hinner.trans (perm_append_comm.append hrest)
  | repository header _ outputs _ ihInner ih =>
    have hrest := ih hparent howner (index + 1) tail
    have hbelow := ne_idBelow (compositeStepId parent header.id index)
    have hinner := ihInner compositeStepId_ne_nil hbelow 0
      (appendOutputs outputs (compositeStepId parent header.id index) .done)
    rw [ownIds_appendOutputs_self, append_nil] at hinner
    rw [entries, flatMap_cons, map_append, map_idBelow_names hparent, append_assoc]
    exact (hinner.append hrest).cons _

end Steps

/-! ## Jobs -/

namespace JobStep

variable {step : JobStep}

/-- The ids the plan has for a job's step and what is inside it. -/
def ids (step : JobStep) : List StepId :=
  step.stepId :: step.entry.inner.map (Steps.idBelow step.stepId)

theorem ownIds_plan (h : step.stepId ≠ []) (rest : Plan) :
    ((step.plan rest).ownIds none).Perm (step.ids ++ rest.ownIds none) := by
  cases step with
  | action => exact List.Perm.refl _
  | composite umbrella definition =>
    refine List.Perm.cons _ (List.Perm.append_right _ ?_)
    match definition with
    | none => exact List.Perm.refl _
    | some (steps, outputs) =>
      have hbody := Steps.ownIds_plan h (Steps.ne_idBelow umbrella.stepId) 0
        (appendOutputs outputs umbrella.stepId .done) steps
      rwa [Steps.ownIds_appendOutputs_self, append_nil] at hbody

/-- An id that is no word, which no nested step can have. -/
def generated (step : JobStep) : List StepId :=
  if expressionLegalSegment step.stepId = step.stepId then [] else [step.stepId]

theorem ids_eq (step : JobStep) : step.ids = step.generated ++ step.entry.names := by
  have hinner : step.entry.inner.map (Steps.idBelow step.stepId) =
      step.entry.inner.map fun path => step.entry.segment ++ '-' :: path := rfl
  unfold generated Entry.names
  by_cases h : expressionLegalSegment step.stepId = step.stepId
  · have hrecorded : step.entry.recorded = true := decide_eq_true h
    rw [if_pos h, if_pos hrecorded]
    show step.stepId :: _ = expressionLegalSegment step.stepId :: _
    rw [h]
    rfl
  · have hrecorded : ¬ step.entry.recorded = true := by
      rw [show step.entry.recorded = decide _ from rfl, decide_eq_true_eq]
      exact h
    rw [if_neg h, if_neg hrecorded]
    rfl

theorem mem_generated {id : StepId} : id ∈ step.generated ↔
    id = step.stepId ∧ expressionLegalSegment step.stepId ≠ step.stepId := by
  unfold generated
  split <;> simp [*]

/-- What a step's names are made of. -/
theorem isLegalKeyword_of_mem_names (h : step.stepId ≠ []) :
    ∀ name ∈ step.entry.names, isLegalKeyword name = true := by
  intro _ hname
  obtain ⟨_, rfl, ⟨rfl, -⟩ | ⟨path, hpath, rfl⟩⟩ := Entry.mem_names.mp hname
  · rw [append_nil]
    exact isLegalKeyword_expressionLegalSegment h
  · refine isLegalKeyword_join (isLegalKeyword_expressionLegalSegment h) ?_
    match step, hpath with
    | .composite _ (some (steps, _)), hpath => exact Steps.continuesWord_of_mem_names 0 path hpath

end JobStep

namespace Job

variable {job : Job}

theorem ownIds_layout (h : ∀ step ∈ job, step.stepId ≠ []) :
    (job.layout.ownIds none).Perm
      (job.flatMap generated ++ (job.map entry).flatMap Entry.names) := by
  induction job with
  | nil => exact List.Perm.refl _
  | cons step job ih =>
    obtain ⟨hstep, hjob⟩ := forall_mem_cons.mp h
    have hids := (step.ownIds_plan hstep (layout job)).trans ((ih hjob).append_left step.ids)
    refine hids.trans ?_
    rw [ids_eq, flatMap_cons, append_assoc, append_assoc]
    exact (perm_append_comm_assoc _ _ _).append_left _

theorem nodup_generated (h : (job.map fun step => expressionLegalSegment step.stepId).Nodup) :
    (job.flatMap generated).Nodup := by
  rw [nodup_flatMap]
  constructor
  · intro _ _
    unfold generated
    split
    · exact nodup_nil
    · exact nodup_singleton _
  · rw [List.Nodup, pairwise_map] at h
    refine h.imp fun {step other} hne id hid hid' => hne ?_
    rw [← (mem_generated.mp hid).1, ← (mem_generated.mp hid').1]

/-- A generated id is no word, and every name in the plan is one. -/
theorem disjoint_generated (h : ∀ step ∈ job, step.stepId ≠ []) :
    (job.flatMap generated).Disjoint ((job.map entry).flatMap Entry.names) := by
  intro id hid hname
  obtain ⟨_, -, hgenerated⟩ := mem_flatMap.mp hid
  obtain ⟨_, hentry, hname⟩ := mem_flatMap.mp hname
  obtain ⟨other, hother, rfl⟩ := mem_map.mp hentry
  have hlegal := other.isLegalKeyword_of_mem_names (h other hother) id hname
  obtain ⟨rfl, hne⟩ := mem_generated.mp hgenerated
  exact hne (expressionLegalSegment_of_legal hlegal)

theorem nodup_inner_iff (h : ∀ steps ∈ job.scopes, steps.LegalScope) :
    (∀ entry ∈ job.map JobStep.entry, entry.inner.Nodup) ↔
      ∀ steps ∈ job.scopes, Apart (steps.entries 0) := by
  rw [forall_mem_map]
  unfold scopes at h ⊢
  simp only [forall_mem_flatMap] at h ⊢
  refine forall₂_congr fun step hstep => ?_
  have hscopes := h step hstep
  match step, hscopes with
  | .action _, _ | .composite _ none, _ => exact ⟨fun _ => nofun, fun _ => nodup_nil⟩
  | .composite _ (some (steps, _)), hscopes =>
    obtain ⟨hown, hinner⟩ := forall_mem_cons.mp hscopes
    refine (nodup_flatMap_names (Steps.nodup_segments 0 hown)).trans ?_
    rw [Steps.nodup_inner_iff 0 hinner, JobStep.scopes, forall_mem_cons, and_comm]

/-- The flattened ids of a job are pairwise distinct exactly when no scope has a
    step that shadows another: a step whose id goes on from a sibling's by a dash
    and a path inside that sibling. -/
theorem distinctIds_iff_unambiguous {plan : Plan} (hplan : job.plan = .ok plan)
    (hlegal : job.LegalIds) : plan.DistinctIds ↔ job.Unambiguous := by
  have hsegments : ((job.map entry).map Entry.segment).Nodup := by
    rw [map_map]
    exact hlegal.distinct
  rw [plan_eq_ok hplan, Plan.DistinctIds, (ownIds_layout hlegal.nonempty).nodup_iff,
    nodup_append', and_iff_right (nodup_generated hlegal.distinct),
    and_iff_left (disjoint_generated hlegal.nonempty), nodup_flatMap_names hsegments,
    nodup_inner_iff hlegal.scopes, Unambiguous, and_comm]

/-- A composite `build` with a script `test`, and a script behind it. -/
def buildJob (second : Str) : Job :=
  [.composite ⟨"build", none, false⟩ (some (.leaf ⟨some "test", none, false⟩ .script .done, true)),
   .action ⟨.script, second, none, false, none⟩]

theorem buildJob_legalIds : (buildJob "deploy").LegalIds ∧ (buildJob "build-test").LegalIds :=
  ⟨⟨by decide +kernel, by decide +kernel, by decide +kernel⟩,
    ⟨by decide +kernel, by decide +kernel, by decide +kernel⟩⟩

theorem distinctIds_of_build_deploy : (buildJob "deploy").layout.DistinctIds :=
  (distinctIds_iff_unambiguous rfl buildJob_legalIds.1).mpr (by decide +kernel)

/-- The step in the composite and the step after it have one id. -/
theorem not_distinctIds_of_build_test :
    (buildJob "build-test").LegalIds ∧
      (buildJob "build-test").plan = .ok (buildJob "build-test").layout ∧
      (buildJob "build-test").layout.ownIds none =
        (["build", "build-test", "build-test"] : List Str) ∧
      ¬ (buildJob "build-test").layout.DistinctIds :=
  ⟨buildJob_legalIds.2, rfl, by decide +kernel, by decide +kernel⟩

end Job

end Velnor.Composite
