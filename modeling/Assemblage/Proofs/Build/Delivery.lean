import Assemblage.Build.Builder
import Assemblage.Proofs.Files.Growth
import Assemblage.Proofs.Yaml.Content

/-!
# Files with the folders around them

A file is delivered by making the folders around it and writing it then. Whether that succeeds can
be told from the tree and the path (`FileTree.Deliverable`): no file may stand where a folder is
needed, and no folder where the file is to be (`FileTree.Deliverable.exists_write`,
`FileTree.Deliverable.of_write`). So a file that can be delivered in a tree that has grown can be
delivered without the growth (`FileTree.Grown.deliverable`). An attempt that fails makes some of
those folders at most (`FileTree.opened_attemptFolder`).
-/

namespace Assemblage
set_option autoImplicit false
open Assemblage.Text (Bytes)

namespace FileTree
open Assemblage.Path (steps)

variable {t u v : FileTree} {p : Path}

/-! ## Where a file can be delivered -/

/-- Whether a file can be written at the end of a path once the folders around it have been made. -/
structure Deliverable (t : FileTree) (p : Path) : Prop where
  relative : p.slashes = 0
  named : ∃ last, last ≠ ".." ∧ p.parts = p.parent.parts ++ [last]
  way : t.Passable [] p.parent.parts
  noFolder : t.isFolder p.place = false
  aside : p.place ∉ p.parent.places

theorem Deliverable.exists_write (h : t.Deliverable p) (bytes : Bytes) :
    ∃ v u, t.makeFolder p.parent = .ok v ∧ v.write p bytes = .ok u := by
  obtain ⟨last, hlast, hparts⟩ := h.named
  obtain ⟨v, hmake⟩ := makeFolder_of_passable (p := p.parent) h.relative h.way
  obtain ⟨-, hwalk, -, hfolders⟩ := makeFolder_eq_ok hmake
  have hnoFolder : v.isFolder p.place = false := by
    rw [← Bool.not_eq_true, hfolders, h.noFolder]
    rintro (hfolder | hstep)
    · cases hfolder
    · exact h.aside hstep
  have hwritable : v.Writable p := ⟨h.relative, ⟨_, last, hparts, hlast, hwalk⟩, hnoFolder⟩
  exact ⟨v, _, hmake, hwritable.write bytes⟩

theorem Deliverable.of_write {bytes : Bytes} (hmake : t.makeFolder p.parent = .ok v)
    (hwrite : v.write p bytes = .ok u) : t.Deliverable p := by
  obtain ⟨hpassable, -, -, hfolders⟩ := makeFolder_eq_ok hmake
  obtain ⟨hwritable, -⟩ := write_eq_ok hwrite
  have hnoFolder : ¬ (t.isFolder p.place = true ∨ p.place ∈ p.parent.places) := by
    rw [← hfolders, hwritable.noFolder]
    exact Bool.false_ne_true
  rw [not_or, Bool.not_eq_true] at hnoFolder
  exact ⟨hwritable.relative, hwritable.parent_parts, hpassable, hnoFolder.1, hnoFolder.2⟩

/-- A file that can be delivered in a tree that has grown could be before. -/
theorem Grown.deliverable {ps : List Path} (hgrown : t.Grown ps u) (h : u.Deliverable p) :
    t.Deliverable p := by
  refine { h with way := hgrown.passable h.way, noFolder := ?_ }
  rw [← Bool.not_eq_true]
  intro hfolder
  have hthere := hgrown.folders _ hfolder
  rw [h.noFolder] at hthere
  cases hthere

/-! ## What a failed attempt leaves -/

/-- Whether a tree comes from another one by making folders that the parts of a path step into. -/
structure Opened (t : FileTree) (parts : List String) (u : FileTree) : Prop where
  files : u.files = t.files
  folders : ∀ n, t.isFolder n = true → u.isFolder n = true
  made : ∀ n, u.isFolder n = true → t.isFolder n = true ∨ n ∈ steps [] parts

theorem Opened.refl (t : FileTree) (parts : List String) : t.Opened parts t :=
  ⟨rfl, fun _ h => h, fun _ h => .inl h⟩

theorem Opened.longer {parts : List String} (h : t.Opened parts u) (part : String) :
    t.Opened (parts ++ [part]) u := by
  refine ⟨h.files, h.folders, fun n hn => (h.made n hn).imp_right fun hstep => ?_⟩
  rw [Path.steps_append]
  exact List.mem_append_left _ hstep

theorem opened_of_makeFolders {reversed : List String} (h : t.makeFolders reversed = .ok u) :
    t.Opened reversed.reverse u := by
  obtain ⟨-, -, hfiles, hfolders⟩ := makeFolders_eq_ok h
  exact ⟨hfiles, fun n hn => (hfolders n).mpr (.inl hn), fun n hn => (hfolders n).mp hn⟩

theorem opened_attemptFolders (t : FileTree) (reversed : List String) :
    t.Opened reversed.reverse (t.attemptFolders reversed) := by
  induction reversed with
  | nil => exact .refl t _
  | cons part outer ih =>
    rw [attemptFolders]
    cases hmake : t.makeFolders (part :: outer) with
    | ok u => exact opened_of_makeFolders hmake
    | error fault =>
      rw [List.reverse_cons]
      exact ih.longer part

/-- **A failed attempt touches no file**, and makes no other folder than those it was to make. -/
theorem opened_attemptFolder (t : FileTree) (p : Path) :
    t.Opened p.parts (t.attemptFolder p) := by
  unfold attemptFolder
  split
  · have hopened := t.opened_attemptFolders p.parts.reverse
    rwa [List.reverse_reverse] at hopened
  · exact .refl t _

end FileTree

/-! ## The artifact of a compilation -/

namespace CompileResult

/-- Whether a result holds an artifact, and no error beside it. -/
structure Produces (r : CompileResult) (bytes : Bytes) : Prop where
  artifact : r.artifact = some bytes
  noError : ∀ d ∈ r.diagnostics, d.isError = false

theorem product?_eq_some {r : CompileResult} {bytes : Bytes} :
    r.product? = some bytes ↔ r.Produces bytes := by
  have herrors : r.errors.isEmpty = true ↔ ∀ d ∈ r.diagnostics, d.isError = false := by
    simp [errors, List.filter_eq_nil_iff]
  constructor
  · intro h
    unfold product? at h
    split at h
    · next hnone => exact ⟨h, herrors.mp hnone⟩
    · cases h
  · intro h
    rw [product?, if_pos (herrors.mpr h.noError), h.artifact]

end CompileResult

namespace Builder

theorem deliver_eq_ok {t u : FileTree} {output : Path} {r : CompileResult}
    (h : deliver t output r = .ok u) :
    r.product? = none ∧ u = t ∨ ∃ bytes v, r.product? = some bytes ∧
      t.makeFolder output.parent = .ok v ∧ v.write output bytes = .ok u := by
  unfold deliver at h
  cases hproduct : r.product? with
  | none =>
    rw [hproduct] at h
    cases h
    exact .inl ⟨rfl, rfl⟩
  | some bytes =>
    rw [hproduct] at h
    obtain ⟨v, hv, hu⟩ := Yaml.bind_eq_ok h
    exact .inr ⟨bytes, v, rfl, hv, hu⟩

theorem deliver_of_write {t u v : FileTree} {output : Path} {r : CompileResult} {bytes : Bytes}
    (hproduct : r.product? = some bytes) (hmake : t.makeFolder output.parent = .ok v)
    (hwrite : v.write output bytes = .ok u) : deliver t output r = .ok u := by
  rw [deliver, hproduct]
  show (t.makeFolder output.parent).bind _ = _
  rw [hmake]
  exact hwrite

theorem deliverable_iff {t : FileTree} {output : Path} {r : CompileResult} {bytes : Bytes}
    (hproduct : r.product? = some bytes) :
    t.Deliverable output ↔ ∃ u, deliver t output r = .ok u := by
  constructor
  · intro h
    obtain ⟨v, u, hmake, hwrite⟩ := h.exists_write bytes
    exact ⟨u, deliver_of_write hproduct hmake hwrite⟩
  · rintro ⟨u, h⟩
    rcases deliver_eq_ok h with ⟨hnone, -⟩ | ⟨_, v, -, hmake, hwrite⟩
    · rw [hnone] at hproduct
      cases hproduct
    · exact .of_write hmake hwrite

theorem deliver_of_grown {t u w : FileTree} {ps : List Path} {output : Path} {r : CompileResult}
    (hgrown : t.Grown ps u) (h : deliver u output r = .ok w) :
    ∃ w', deliver t output r = .ok w' := by
  cases hproduct : r.product? with
  | none => exact ⟨t, by rw [deliver, hproduct]⟩
  | some bytes =>
    have hdeliverable := (deliverable_iff hproduct).mpr ⟨w, h⟩
    exact (deliverable_iff hproduct).mp (hgrown.deliverable hdeliverable)

end Builder

end Assemblage
