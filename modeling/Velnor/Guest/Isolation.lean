/-
  The isolation identity of one job and the paths its teardown may remove
  (execution/isolation.rs).

  A path is the list of its components, the root directory being one.  A jailer
  id holds neither a slash nor a dot, so joining one adds a component.  The tap
  device is no path and is left out.

  The jailer id replaces characters and is cut at 64, so it does not tell all
  identities apart.  It does for those it spells out, as it does the UUIDs that
  jobs have for ids.
-/
import Velnor.Text.Str

namespace Velnor.Guest

open List

/-- One GitHub job's isolation ID and generation. -/
structure IsolationIdentity where
  id : Str
  generation : UInt64
  deriving DecidableEq, Repr

def sanitize (raw : Str) : Str :=
  raw.map fun ch => if ch.isAlphanum || ch == '-' then ch else '-'

/-- Jailer `--id`: alphanumeric and hyphens, max 64. -/
def IsolationIdentity.asJailerId (identity : IsolationIdentity) : Str :=
  (sanitize identity.id ++ '-' :: Nat.toDigits 10 identity.generation.toNat).take 64

abbrev Path := List Str

/-- Host resources owned by one isolation identity. -/
structure IsolationResources where
  chroot : Path
  netns : Path
  vsock : Path
  writableDisk : Path

def netnsPath (jailerId : Str) : Path :=
  ["/", "var", "run", "netns", jailerId]

def IsolationResources.forIdentity (identity : IsolationIdentity) (isolationRoot : Path) :
    IsolationResources :=
  let jailerId := identity.asJailerId
  { chroot := isolationRoot ++ ["jailer".toList, "firecracker".toList, jailerId, "root".toList]
    netns := netnsPath jailerId
    vsock := isolationRoot ++ ["vsock".toList, jailerId ++ ".sock".toList]
    writableDisk := isolationRoot ++ ["disks".toList, jailerId ++ ".rw.ext4".toList] }

/-- Paths teardown may delete. -/
def IsolationResources.teardownPaths (resources : IsolationResources) : List Path :=
  [resources.chroot, resources.netns, resources.vsock, resources.writableDisk]

/-! ## Paths -/

/-- It has a hyphen, or the full length. -/
theorem IsolationIdentity.asJailerId_ne {a : IsolationIdentity} {name : Str}
    (hyphen : '-' ∉ name) (hlength : name.length < 64) : a.asJailerId ≠ name := by
  rintro rfl
  rw [asJailerId, length_take] at hlength
  rw [asJailerId, take_of_length_le (by omega)] at hyphen
  exact hyphen (mem_append_right _ mem_cons_self)

/-- Neither path is or lies in the other. -/
def Apart (p q : Path) : Prop := ¬ p <+: q ∧ ¬ q <+: p

theorem apart_comm {p q : Path} : Apart p q ↔ Apart q p := and_comm

theorem apart_append_iff {root p q : Path} : Apart (root ++ p) (root ++ q) ↔ Apart p q := by
  rw [Apart, Apart, prefix_append_right_inj, prefix_append_right_inj]

theorem apart_cons_iff {x y : Str} {p q : Path} :
    Apart (x :: p) (y :: q) ↔ (x = y → Apart p q) := by
  by_cases h : x = y <;> simp [Apart, h, Ne.symm]

theorem apart_netnsPath_iff {i j : Str} : Apart (netnsPath i) (netnsPath j) ↔ i ≠ j := by
  simp [Apart, netnsPath, eq_comm]

/-- The namespace path meets what the identity has under a root only by holding
    that root. -/
theorem apart_netnsPath_root_iff (identity : IsolationIdentity) {first : Str}
    (hmem : first ∈ ["jailer".toList, "vsock".toList, "disks".toList]) (root rest : Path) :
    Apart (netnsPath identity.asJailerId) (root ++ first :: rest)
      ↔ ¬ netnsPath identity.asJailerId <+: root := by
  have hfirst : first ∉ netnsPath identity.asJailerId := by
    have hfixed : first ∉ ["/".toList, "var".toList, "run".toList, "netns".toList] := by
      revert first
      decide
    have hid : identity.asJailerId ≠ first := by
      refine IsolationIdentity.asJailerId_ne ?_ ?_ <;> revert first <;> decide
    intro hin
    rcases mem_append.mp (show first ∈ [_, _, _, _] ++ [_] from hin) with h | h
    · exact hfixed h
    · exact hid (mem_singleton.mp h).symm
  constructor
  · rintro ⟨hout, -⟩ hroot
    exact hout (hroot.trans <| prefix_append _ _)
  · refine fun hroot => ⟨fun hin => ?_, fun hin => hfirst (hin.subset (by simp))⟩
    have hpath : root <+: root ++ first :: rest := prefix_append root _
    rcases prefix_or_prefix_of_prefix hin hpath with h | ⟨tail, h⟩
    · exact hroot h
    · rw [← h, prefix_append_right_inj] at hin
      cases tail with
      | nil => exact hroot (by rw [← h, append_nil])
      | cons c =>
        obtain ⟨rfl, -⟩ := cons_prefix_cons.mp hin
        exact hfirst (h ▸ by simp)

section Teardown

variable (a b : IsolationIdentity) (root : Path)

/-- The paths of one identity are apart unless its root lies in its namespace. -/
theorem teardownPaths_apart_iff :
    (IsolationResources.forIdentity a root).teardownPaths.Pairwise Apart
      ↔ ¬ netnsPath a.asJailerId <+: root := by
  have hright := fun first hfirst => @apart_netnsPath_root_iff a first hfirst root
  have hleft := fun first hfirst rest => apart_comm.trans (hright first hfirst rest)
  simp [-String.reduceToList, String.toList_inj, IsolationResources.teardownPaths,
    IsolationResources.forIdentity, apart_append_iff, apart_cons_iff, hright, hleft]

/-- Outside the namespaces two identities meet in their jailer ids. -/
theorem teardownPaths_apart_across_iff (ha : ¬ netnsPath a.asJailerId <+: root)
    (hb : ¬ netnsPath b.asJailerId <+: root) :
    (∀ p ∈ (IsolationResources.forIdentity a root).teardownPaths,
        ∀ q ∈ (IsolationResources.forIdentity b root).teardownPaths, Apart p q)
      ↔ a.asJailerId ≠ b.asJailerId := by
  have hright := fun first hfirst rest =>
    (@apart_netnsPath_root_iff a first hfirst root rest).mpr ha
  have hleft := fun first hfirst rest =>
    apart_comm.mp ((@apart_netnsPath_root_iff b first hfirst root rest).mpr hb)
  have hnil : ¬ Apart [] [] := fun h => h.1 prefix_rfl
  simp [-String.reduceToList, String.toList_inj, IsolationResources.teardownPaths,
    IsolationResources.forIdentity, apart_append_iff, apart_cons_iff, apart_netnsPath_iff, hright,
    hleft, hnil]

/-- Teardown of two identities removes paths apart exactly when their jailer ids
    differ and the isolation root lies in neither network namespace. -/
theorem teardown_isolated_iff :
    ((IsolationResources.forIdentity a root).teardownPaths
        ++ (IsolationResources.forIdentity b root).teardownPaths).Pairwise Apart
      ↔ a.asJailerId ≠ b.asJailerId ∧ ¬ netnsPath a.asJailerId <+: root
        ∧ ¬ netnsPath b.asJailerId <+: root := by
  rw [pairwise_append, teardownPaths_apart_iff, teardownPaths_apart_iff]
  constructor
  · rintro ⟨ha, hb, hacross⟩
    exact ⟨(teardownPaths_apart_across_iff a b root ha hb).mp hacross, ha, hb⟩
  · rintro ⟨hne, ha, hb⟩
    exact ⟨ha, hb, (teardownPaths_apart_across_iff a b root ha hb).mpr hne⟩

end Teardown

/-! ## Identities that the jailer id spells out -/

namespace IsolationIdentity

/-- The id and the generation, joined by a hyphen. -/
def name (identity : IsolationIdentity) : Str :=
  identity.id ++ '-' :: Nat.toDigits 10 identity.generation.toNat

/-- The id has ASCII letters, digits and hyphens only, and with the generation
    it fits the length of a jailer id. -/
structure Spelled (identity : IsolationIdentity) : Prop where
  legal : identity.id.all (fun ch => ch.isAlphanum || ch == '-') = true
  fits : identity.name.length ≤ 64

theorem Spelled.asJailerId_eq {identity : IsolationIdentity} (h : identity.Spelled) :
    identity.asJailerId = identity.name := by
  have hsanitize : sanitize identity.id = identity.id := by
    unfold sanitize
    refine (map_congr_left fun ch hch => ?_).trans (map_id _)
    exact if_pos (all_eq_true.mp h.legal ch hch)
  rw [asJailerId, hsanitize]
  exact take_of_length_le h.fits

theorem hyphen_notMem_digits (n : Nat) : '-' ∉ Nat.toDigits 10 n := by
  intro hmem
  cases Nat.isDigit_of_mem_toDigits (by decide) (by decide) hmem

/-- What follows the last hyphen is told apart from what comes before it. -/
theorem append_hyphen_inj {x x' z z' : Str} (hz : '-' ∉ z) (hz' : '-' ∉ z')
    (h : x ++ '-' :: z = x' ++ '-' :: z') : x = x' ∧ z = z' := by
  rcases append_eq_append_iff.mp h with ⟨c, rfl, hc⟩ | ⟨c, rfl, hc⟩
  · cases c with
    | nil => exact ⟨(append_nil x).symm, (cons.inj hc).2⟩
    | cons =>
      rw [(cons.inj hc).2] at hz
      exact absurd (mem_append_right _ mem_cons_self) hz
  · cases c with
    | nil => exact ⟨append_nil x', (cons.inj hc).2.symm⟩
    | cons =>
      rw [(cons.inj hc).2] at hz'
      exact absurd (mem_append_right _ mem_cons_self) hz'

theorem name_inj {a b : IsolationIdentity} (h : a.name = b.name) : a = b := by
  obtain ⟨hid, hdigits⟩ := append_hyphen_inj (hyphen_notMem_digits _) (hyphen_notMem_digits _) h
  have hgeneration : a.generation.toNat = b.generation.toNat := by
    rw [← Nat.ofDigitChars_ten_toDigits (n := a.generation.toNat), hdigits,
      Nat.ofDigitChars_ten_toDigits]
  cases a
  cases b
  exact congrArg₂ mk hid (UInt64.toNat_inj.mp hgeneration)

end IsolationIdentity

/-- Teardown of two jobs whose ids are spelled out removes paths apart, under a
    root in neither network namespace. -/
theorem teardown_isolated (a b : IsolationIdentity) (root : Path) (hne : a ≠ b) (ha : a.Spelled)
    (hb : b.Spelled) (hroot : ∀ identity ∈ [a, b], ¬ netnsPath identity.name <+: root) :
    ((IsolationResources.forIdentity a root).teardownPaths
        ++ (IsolationResources.forIdentity b root).teardownPaths).Pairwise Apart := by
  rw [teardown_isolated_iff, ha.asJailerId_eq, hb.asJailerId_eq]
  exact ⟨fun heq => hne (IsolationIdentity.name_inj heq), hroot a mem_cons_self,
    hroot b (mem_cons_of_mem _ mem_cons_self)⟩

/-- Two jobs on the packaged root. -/
theorem teardown_isolated_uuids :
    ((IsolationResources.forIdentity ⟨"5f2b8c1e-90ad-4c33-8a17-0d6f4e7b2a91", 1⟩
          ["/", "var", "lib", "velnor", "microvm"]).teardownPaths
        ++ (IsolationResources.forIdentity ⟨"5f2b8c1e-90ad-4c33-8a17-0d6f4e7b2a92", 1⟩
          ["/", "var", "lib", "velnor", "microvm"]).teardownPaths).Pairwise Apart :=
  teardown_isolated _ _ _ (by decide) ⟨rfl, by decide⟩ ⟨rfl, by decide⟩ (by decide)

/-- A slash and a hyphen in a job's id make one jailer id. -/
theorem teardown_isolated_slash :
    (⟨"a/b", 1⟩ : IsolationIdentity) ≠ ⟨"a-b", 1⟩
    ∧ ¬ ((IsolationResources.forIdentity ⟨"a/b", 1⟩ ["/"]).teardownPaths
      ++ (IsolationResources.forIdentity ⟨"a-b", 1⟩ ["/"]).teardownPaths).Pairwise Apart := by
  refine ⟨by decide, fun h => ?_⟩
  have hacross := (pairwise_append.mp h).2.2
  exact (hacross (netnsPath "a-b-1".toList) (by decide) _ (by decide)).1 prefix_rfl

end Velnor.Guest
