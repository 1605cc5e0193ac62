import CoverageReplay.Coverage.Merged
import CoverageReplay.Proofs.SortedMap
import Mathlib.Data.Finset.Sort
import Mathlib.Data.String.Basic

/-!
# The files that profiles touch

Merged coverage knows a file as soon as a block of some profile belongs to it, whether or not the
block ran, so its files are those that the profiles refer to, in the order of their paths
(`keys_ofProfiles`).
-/

namespace CoverageReplay

/-- The files that the blocks of some profiles belong to, in the order of their paths. -/
def touched (profiles : List Profile) : List String :=
  (profiles.flatMap fun p => p.blocks.map Block.file).toFinset.sort

/-- A file is touched exactly if some block of some profile names it. -/
theorem mem_touched {profiles : List Profile} {path : String} :
    path ∈ touched profiles ↔ ∃ p ∈ profiles, ∃ b ∈ p.blocks, b.file = path := by
  simp [touched]

@[simp] theorem touched_nil : touched [] = [] := by
  simp [touched]

/-- Touched files are listed in order and once each. -/
theorem sortedLT_touched (profiles : List Profile) : (touched profiles).SortedLT :=
  Finset.sortedLT_sort _

/-- More profiles touch more files. -/
theorem touched_mono {profiles more : List Profile} (sub : profiles ⊆ more) :
    touched profiles ⊆ touched more := by
  intro path hpath
  obtain ⟨p, hp, hb⟩ := mem_touched.mp hpath
  exact mem_touched.mpr ⟨p, sub hp, hb⟩

theorem touched_subset_append (profiles more : List Profile) :
    touched profiles ⊆ touched (profiles ++ more) :=
  touched_mono (List.subset_append_left _ _)

namespace MergedCoverage

/-- Merging blocks adds the files that they name. -/
theorem mem_keys_foldl {m : MergedCoverage} {blocks : List Block} {path : String} :
    path ∈ (blocks.foldl addBlock m).files.keys ↔
      path ∈ m.files.keys ∨ ∃ b ∈ blocks, b.file = path := by
  induction blocks generalizing m with
  | nil => simp
  | cons b rest ih =>
    rw [List.foldl_cons, ih, addBlock, SortedMap.mem_keys_alter, List.exists_mem_cons_iff,
      or_comm (a := path = b.file), or_assoc, eq_comm (a := path)]

/-- Merging blocks keeps the files in order. -/
theorem pairwise_keys_foldl {m : MergedCoverage} (sorted : m.files.keys.Pairwise (· < ·))
    (blocks : List Block) : (blocks.foldl addBlock m).files.keys.Pairwise (· < ·) := by
  induction blocks generalizing m with
  | nil => exact sorted
  | cons b rest ih => exact ih (SortedMap.pairwise_keys_alter sorted _ _)

/-- Profiles are merged block by block. -/
theorem ofProfiles_eq_foldl (profiles : List Profile) :
    ofProfiles profiles = (profiles.flatMap Profile.blocks).foldl addBlock empty := by
  unfold ofProfiles
  generalize empty = m
  induction profiles generalizing m with
  | nil => rfl
  | cons p rest ih => rw [List.foldl_cons, ih, List.flatMap_cons, List.foldl_append, merge]

/-- A last profile is merged into what the others give. -/
theorem ofProfiles_append (profiles : List Profile) (p : Profile) :
    ofProfiles (profiles ++ [p]) = (ofProfiles profiles).merge p := by
  simp [ofProfiles]

/-- Merged coverage knows the files that the profiles touch. -/
theorem keys_ofProfiles (profiles : List Profile) :
    (ofProfiles profiles).files.keys = touched profiles := by
  refine List.SortedLT.eq_of_mem_iff ?_ (sortedLT_touched _) fun path => ?_
  · rw [ofProfiles_eq_foldl]
    exact (pairwise_keys_foldl List.Pairwise.nil _).sortedLT
  · rw [ofProfiles_eq_foldl, mem_keys_foldl, mem_touched]
    simp only [empty, SortedMap.keys_empty, List.not_mem_nil, false_or, List.mem_flatMap]
    exact ⟨fun ⟨b, ⟨p, hp, hb⟩, hpath⟩ => ⟨p, hp, b, hb, hpath⟩,
      fun ⟨p, hp, b, hb, hpath⟩ => ⟨b, ⟨p, hp, hb⟩, hpath⟩⟩

end MergedCoverage

end CoverageReplay
