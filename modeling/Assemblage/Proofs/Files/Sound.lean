import Assemblage.Proofs.Files.Growth

/-!
# Sound trees

A tree is sound if every file stands at a place of its own, in a folder, and is none itself
(`FileTree.Sound`). The empty tree is sound, and stays so while folders are made and files are
written (`FileTree.Sound.makeFolder`, `FileTree.Sound.write`).

In a sound tree the names below a folder lead to a file exactly if one stands at their end
(`FileTree.Sound.hasBelow_iff`), and nothing depends on the order of the entries
(`FileTree.Sound.locate_perm`).
-/

namespace Assemblage
set_option autoImplicit false
open Assemblage.Text (Bytes)

namespace Path

/-- The places around one that a path steps into are stepped into as well, from the start on. -/
theorem dropLast_of_mem_steps {names parts n : List String} (h : n ∈ steps names parts) :
    n.dropLast <+: names ∨ n.dropLast ∈ steps names parts := by
  induction parts generalizing names with
  | nil => cases h
  | cons part rest ih =>
    rw [steps] at h ⊢
    by_cases hpart : part = ".."
    · rw [if_pos hpart] at h ⊢
      exact (ih h).imp_left fun haround => haround.trans (List.dropLast_prefix names)
    · rw [if_neg hpart] at h ⊢
      rcases List.mem_cons.mp h with rfl | hrest
      · rw [List.dropLast_concat]
        exact .inl (List.prefix_refl names)
      · rcases ih hrest with haround | hstep
        · rcases List.prefix_concat_iff.mp haround with heq | haround
          · exact .inr (heq ▸ List.mem_cons_self)
          · exact .inl haround
        · exact .inr (List.mem_cons_of_mem _ hstep)

theorem back_not_mem_goal {names parts : List String} (h : ".." ∉ names) :
    ".." ∉ goal names parts := by
  induction parts generalizing names with
  | nil => exact h
  | cons part rest ih =>
    rw [goal_cons]
    by_cases hpart : part = ".."
    · rw [if_pos hpart]
      exact ih fun hmem => h (List.dropLast_subset _ hmem)
    · rw [if_neg hpart]
      refine ih ?_
      simp [h, Ne.symm hpart]

end Path

namespace FileTree
open Assemblage.Path (steps goal)

variable {t u : FileTree} {p folder : Path} {bytes : Bytes}

/-- Whether every folder is in a folder, and every file stands at a place of its own in a folder,
where no folder is. -/
structure Sound (t : FileTree) : Prop extends Proper t where
  distinct : (t.files.map Prod.fst).Nodup
  inFolder : ∀ f ∈ t.files, t.isFolder f.1.dropLast = true
  noFolder : ∀ f ∈ t.files, t.isFolder f.1 = false

instance (t : FileTree) : Decidable t.Sound :=
  decidable_of_iff
    (t.Proper ∧ (t.files.map Prod.fst).Nodup ∧ (∀ f ∈ t.files, t.isFolder f.1.dropLast = true) ∧
      ∀ f ∈ t.files, t.isFolder f.1 = false)
    ⟨fun h => ⟨h.1, h.2.1, h.2.2.1, h.2.2.2⟩,
      fun h => ⟨h.toProper, h.distinct, h.inFolder, h.noFolder⟩⟩

theorem bytes?_eq_some (h : (t.files.map Prod.fst).Nodup) {names : List String} :
    t.bytes? names = some bytes ↔ (names, bytes) ∈ t.files := by
  refine ⟨fun hbytes => ?_, lookup_of_nodup h⟩
  obtain ⟨front, back, hfiles, -⟩ := List.lookup_eq_some_iff.mp hbytes
  rw [hfiles]
  exact List.mem_append_right _ List.mem_cons_self

theorem bytes?_eq_none {names : List String} :
    t.bytes? names = none ↔ names ∉ t.files.map Prod.fst := by
  rw [bytes?, List.lookup_eq_none_iff, List.mem_map, not_exists]
  simp only [bne_iff_ne, not_and, ne_comm]

/-! ## Growing soundly -/

theorem Sound.empty : empty.Sound := by decide

theorem Sound.makeFolder (h : t.Sound) (hmake : t.makeFolder p = .ok u) : u.Sound := by
  obtain ⟨hpassable, -, hfiles, hfolders⟩ := makeFolder_eq_ok hmake
  refine ⟨⟨fun n hn => ?_, hfiles ▸ h.names⟩, hfiles ▸ h.distinct, fun f hf => ?_, fun f hf => ?_⟩
  · rw [hfolders]
    rcases (hfolders n).mp hn with hold | hstep
    · exact .inl (h.folders n hold)
    · rcases Path.dropLast_of_mem_steps hstep with hroot | hstep
      · rw [List.prefix_nil.mp hroot]
        exact .inl rfl
      · exact .inr hstep
  · exact (hfolders _).mpr (.inl (h.inFolder f (hfiles ▸ hf)))
  · have hf : f ∈ t.files := hfiles ▸ hf
    have hold := h.noFolder f hf
    rw [← Bool.not_eq_true, hfolders]
    rintro (hfolder | hstep)
    · simp [hold] at hfolder
    · rcases hpassable.bytes?_eq_none hstep with hfolder | hnone
      · simp [hold] at hfolder
      · exact bytes?_eq_none.mp hnone (List.mem_map_of_mem hf)

theorem mem_put {names : List String} {files : List (List String × Bytes)}
    {f : List String × Bytes} (h : f ∈ put names bytes files) : f.1 = names ∨ f ∈ files := by
  induction files with
  | nil => exact .inl (by rw [List.mem_singleton.mp h])
  | cons g rest ih =>
    rw [put] at h
    split at h
    · rcases List.mem_cons.mp h with rfl | hrest
      · exact .inl rfl
      · exact .inr (List.mem_cons_of_mem _ hrest)
    · rcases List.mem_cons.mp h with rfl | hrest
      · exact .inr List.mem_cons_self
      · exact (ih hrest).imp_right (List.mem_cons_of_mem _)

theorem nodup_put {names : List String} {files : List (List String × Bytes)}
    (h : (files.map Prod.fst).Nodup) : ((put names bytes files).map Prod.fst).Nodup := by
  induction files with
  | nil => simp [put]
  | cons g rest ih =>
    obtain ⟨hnew, hrest⟩ := List.nodup_cons.mp h
    rw [put]
    split
    · next hg => exact List.nodup_cons.mpr ⟨hg ▸ hnew, hrest⟩
    · next hg =>
      refine List.nodup_cons.mpr ⟨fun hmem => ?_, ih hrest⟩
      obtain ⟨f, hf, hplace⟩ := List.mem_map.mp hmem
      rcases mem_put hf with hnames | hold
      · exact hg (hplace.symm.trans hnames)
      · exact hnew (List.mem_map.mpr ⟨f, hold, hplace⟩)

theorem Sound.write (h : t.Sound) (hwrite : t.write p bytes = .ok u) : u.Sound := by
  obtain ⟨hwritable, rfl⟩ := write_eq_ok hwrite
  obtain ⟨init, last, hparts, hlast, hwalk⟩ := hwritable.inFolder
  have hplace := place_concat hparts hlast
  have hgoal : t.isFolder (goal [] init) = true := by
    by_cases hroot : goal [] init = []
    · rw [hroot]
      rfl
    · refine (walk_eq_folder hwalk).2 _ ?_
      exact (Path.mem_steps_of_prefix (List.prefix_refl _)).resolve_left
        fun haround => hroot (List.prefix_nil.mp haround)
  refine ⟨⟨h.folders, fun f hf => ?_⟩, nodup_put h.distinct, fun f hf => ?_, fun f hf => ?_⟩
  · rcases mem_put hf with hnew | hold
    · rw [hnew]
      exact Path.back_not_mem_goal List.not_mem_nil
    · exact h.names f hold
  · rcases mem_put hf with hnew | hold
    · rw [hnew, hplace, List.dropLast_concat]
      exact hgoal
    · exact h.inFolder f hold
  · rcases mem_put hf with hnew | hold
    · rw [hnew]
      exact hwritable.noFolder
    · exact h.noFolder f hold

/-! ## Below a folder -/

/-- Whether names, none of them a step back, lead from a folder to a file. -/
def HasBelow (t : FileTree) (folder : Path) (below : List String) : Prop :=
  ".." ∉ below ∧
    ∃ place bytes, t.locate (Discovery.pathOf folder below) = .ok (.file place bytes)

theorem Sound.walk_eq_file (h : t.Sound) {names below place : List String}
    (hback : ".." ∉ below) :
    t.walk names below = .ok (.file place bytes) ↔
      below ≠ [] ∧ place = names ++ below ∧ (place, bytes) ∈ t.files := by
  induction below generalizing names with
  | nil => simp [walk]
  | cons part rest ih =>
    rw [List.mem_cons, not_or] at hback
    rw [walk_cons t rest (Ne.symm hback.1), List.append_cons names part rest]
    by_cases hfolder : t.isFolder (names ++ [part]) = true
    · rw [if_pos hfolder, ih hback.2]
      refine ⟨fun hfile => ⟨by simp, hfile.2⟩, fun hfile => ⟨?_, hfile.2⟩⟩
      -- the folder itself is no file
      rintro rfl
      obtain ⟨-, rfl, hmem⟩ := hfile
      have hplace := h.noFolder _ hmem
      simp [hfolder] at hplace
    · rw [if_neg hfolder]
      -- a file further down would be in a folder
      have hlast : (names ++ [part] ++ rest, bytes) ∈ t.files → rest = [] := by
        intro hmem
        by_contra hrest
        have haround : names ++ [part] <+: (names ++ [part] ++ rest).dropLast := by
          rw [List.dropLast_append_of_ne_nil hrest]
          exact List.prefix_append _ _
        exact hfolder (h.isFolder_of_prefix (h.inFolder _ hmem) haround)
      cases rest with
      | nil =>
        cases hbytes : t.bytes? (names ++ [part]) with
        | none =>
          have hnone := bytes?_eq_none.mp hbytes
          simp only [List.isEmpty_nil, if_true, List.append_nil]
          constructor
          · intro hvacant
            cases hvacant
          · rintro ⟨-, rfl, hmem⟩
            exact absurd (List.mem_map_of_mem hmem) hnone
        | some held =>
          have hheld := (bytes?_eq_some h.distinct).mp hbytes
          simp only [List.isEmpty_nil, if_true, List.append_nil]
          constructor
          · intro hfile
            cases hfile
            exact ⟨by simp, rfl, hheld⟩
          · rintro ⟨-, rfl, hmem⟩
            rw [(bytes?_eq_some h.distinct).mpr hmem] at hbytes
            cases hbytes
            rfl
      | cons next rest =>
        constructor
        · intro hfile
          split at hfile <;> cases hfile
        · rintro ⟨-, rfl, hmem⟩
          cases hlast hmem

theorem Sound.hasBelow_iff (h : t.Sound) {m : List String}
    (hfolder : t.locate folder = .ok (.folder m)) {below : List String} :
    t.HasBelow folder below ↔ below ≠ [] ∧ ∃ bytes, (m ++ below, bytes) ∈ t.files := by
  unfold HasBelow
  rw [Discovery.locate_pathOf hfolder]
  constructor
  · rintro ⟨hback, place, bytes, hwalk⟩
    obtain ⟨hne, rfl, hmem⟩ := (h.walk_eq_file hback).mp hwalk
    exact ⟨hne, bytes, hmem⟩
  · rintro ⟨hne, bytes, hmem⟩
    have hback : ".." ∉ below := fun hstep => h.names _ hmem (List.mem_append_right _ hstep)
    exact ⟨hback, _, bytes, (h.walk_eq_file hback).mpr ⟨hne, rfl, hmem⟩⟩

/-! ## The order of the entries -/

theorem walk_congr (hfolders : ∀ n, u.isFolder n = t.isFolder n)
    (hbytes : ∀ n, u.bytes? n = t.bytes? n) (names parts : List String) :
    u.walk names parts = t.walk names parts := by
  induction parts generalizing names with
  | nil => rfl
  | cons part rest ih =>
    by_cases hpart : part = ".."
    · subst hpart
      rw [walk_back, walk_back, ih]
    · rw [walk_cons u rest hpart, walk_cons t rest hpart, hfolders, hbytes, ih]

section Perm
variable (h : t.Sound) (hfolders : u.folders.Perm t.folders) (hfiles : u.files.Perm t.files)
include hfolders

theorem isFolder_perm (n : List String) : u.isFolder n = t.isFolder n := by
  rw [isFolder, isFolder, Bool.eq_iff_iff]
  simp [hfolders.mem_iff]

include h hfiles

theorem Sound.of_perm : u.Sound := by
  have hisFolder := isFolder_perm hfolders
  refine ⟨⟨fun n hn => ?_, fun f hf => h.names f (hfiles.mem_iff.mp hf)⟩,
    (hfiles.map _).nodup_iff.mpr h.distinct, fun f hf => ?_, fun f hf => ?_⟩
  · rw [hisFolder] at hn ⊢
    exact h.folders n hn
  · rw [hisFolder]
    exact h.inFolder f (hfiles.mem_iff.mp hf)
  · rw [hisFolder]
    exact h.noFolder f (hfiles.mem_iff.mp hf)

theorem Sound.locate_perm (p : Path) : u.locate p = t.locate p := by
  have hbytes : ∀ n, u.bytes? n = t.bytes? n := by
    intro n
    refine Option.ext fun bytes => ?_
    rw [bytes?_eq_some (h.of_perm hfolders hfiles).distinct, bytes?_eq_some h.distinct,
      hfiles.mem_iff]
  rw [locate, locate, walk_congr (isFolder_perm hfolders) hbytes]

end Perm
end FileTree
end Assemblage
