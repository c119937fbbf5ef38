import Assemblage.Files.Discovery
import Assemblage.Proofs.Files.Tree
import Mathlib.Data.List.Induction

/-!
# Trees that have grown

Writing a file, with the folders around it, lets a tree grow: folders appear at the places that the
path of the file steps into, a file appears or changes at the place that it names, and nothing else
happens (`FileTree.Grown.of_write`).

The search of a folder notices nothing of a growth aside of it (`FileTree.Aside`): the folder is
found where it was found before, and every file in it is read as before (`FileTree.Grown.find`,
`FileTree.Grown.read`).
-/

namespace Assemblage
set_option autoImplicit false
open Assemblage.Text (Bytes)

/-! ## Steps to a place -/

namespace Path

theorem mem_steps_of_prefix {names parts n : List String} (h : n <+: goal names parts) :
    n <+: names ∨ n ∈ steps names parts := by
  induction parts generalizing names with
  | nil => exact .inl h
  | cons part rest ih =>
    rw [goal_cons] at h
    rw [steps]
    by_cases hpart : part = ".."
    · rw [if_pos hpart] at h ⊢
      exact (ih h).imp_left fun haround => haround.trans (List.dropLast_prefix names)
    · rw [if_neg hpart] at h ⊢
      rcases ih h with haround | hstep
      · rcases List.prefix_concat_iff.mp haround with rfl | haround
        · exact .inr List.mem_cons_self
        · exact .inl haround
      · exact .inr (List.mem_cons_of_mem _ hstep)

/-- A path steps into every place around the one that it names. -/
theorem mem_places_of_prefix {p : Path} {n : List String} (h : n <+: p.place) (hn : n ≠ []) :
    n ∈ p.places := by
  rcases mem_steps_of_prefix (show n <+: goal [] p.parts from h) with haround | hstep
  · exact absurd (List.prefix_nil.mp haround) hn
  · exact hstep

end Path

/-! ## Finding files -/

namespace Discovery
variable {t : FileTree} {folder : Path} {patterns exclude : List String} {recursive : Bool}

theorem find_of_not_folder (h : ∀ m, t.locate folder ≠ .ok (.folder m)) :
    find t folder patterns exclude recursive = .error (.missingFolder folder) := by
  unfold find
  split
  · next m hm => exact absurd hm (h m)
  · rfl

theorem mem_of_find {found : List (List String)}
    (h : find t folder patterns exclude recursive = .ok found) {below : List String}
    (hbelow : below ∈ found) :
    ∃ m, t.locate folder = .ok (.folder m) ∧ ∃ f ∈ t.files, f.1.drop m.length = below := by
  unfold find at h
  split at h
  · next m hm =>
    cases h
    have hmem := List.mem_of_mem_filter (List.mem_mergeSort.mp hbelow)
    obtain ⟨f, hf, hdrop⟩ := List.mem_filterMap.mp hmem
    split at hdrop
    · exact ⟨m, hm, f, hf, Option.some.inj hdrop⟩
    · cases hdrop
  · cases h

/-- What is below a folder is found from the place of the folder on. -/
theorem locate_pathOf {m : List String} (h : t.locate folder = .ok (.folder m))
    (below : List String) : t.locate (pathOf folder below) = t.walk m below := by
  unfold FileTree.locate at h
  split at h
  · next hslashes =>
    show (if folder.slashes = 0 then t.walk [] (folder.parts ++ below) else _) = _
    rw [if_pos hslashes, FileTree.walk_append h]
  · cases h

theorem mapM_congr {ε α β : Type} {f g : α → Except ε β} {xs : List α}
    (h : ∀ x ∈ xs, f x = g x) : xs.mapM f = xs.mapM g := by
  induction xs with
  | nil => rfl
  | cons x xs ih =>
    obtain ⟨hx, hxs⟩ := List.forall_mem_cons.mp h
    rw [List.mapM_cons, List.mapM_cons, hx, ih hxs]

end Discovery

namespace FileTree
open Assemblage.Path (steps goal)

variable {t u v : FileTree} {ps qs : List Path} {p : Path}

/-! ## Proper trees -/

/-- Whether every folder is in a folder, and no file has a step back in its place. -/
structure Proper (t : FileTree) : Prop where
  folders : ∀ n, t.isFolder n = true → t.isFolder n.dropLast = true
  names : ∀ f ∈ t.files, ".." ∉ f.1

instance (t : FileTree) : Decidable t.Proper :=
  decidable_of_iff
    ((∀ n ∈ t.folders, t.isFolder n.dropLast = true) ∧ ∀ f ∈ t.files, ".." ∉ f.1) <| by
    refine ⟨fun h => ⟨fun n hn => ?_, h.2⟩, fun h => ⟨fun n hn => h.folders n ?_, h.names⟩⟩
    · rcases eq_or_ne n [] with rfl | hroot
      · rfl
      · exact h.1 n (by simpa [isFolder, hroot] using hn)
    · simp [isFolder, hn]

theorem Proper.isFolder_of_prefix (h : t.Proper) {m n : List String} (hn : t.isFolder n = true)
    (haround : m <+: n) : t.isFolder m = true := by
  obtain ⟨rest, rfl⟩ := haround
  induction rest using List.reverseRecOn with
  | nil => simpa using hn
  | append_singleton rest last ih =>
    have hfolder := h.folders _ hn
    rw [← List.append_assoc, List.dropLast_concat] at hfolder
    exact ih hfolder

/-! ## Growth -/

/-- Whether a tree comes from another one by writing files at the ends of paths. -/
structure Grown (t : FileTree) (ps : List Path) (u : FileTree) : Prop where
  folders : ∀ n, t.isFolder n = true → u.isFolder n = true
  made : ∀ n, u.isFolder n = true →
    t.isFolder n = true ∨ t.bytes? n = none ∧ ∃ p ∈ ps, n ∈ p.parent.places
  held : ∀ n, u.bytes? n = none → t.bytes? n = none
  bytes : ∀ n, (∀ p ∈ ps, n ≠ p.place) → u.bytes? n = t.bytes? n
  below : ∀ names, (∀ p ∈ ps, ¬ names <+: p.place) →
    Discovery.filesBelow u names = Discovery.filesBelow t names
  places : ∀ p ∈ ps, p.places = p.parent.places ++ [p.place]

namespace Grown

theorem refl (t : FileTree) : t.Grown [] t where
  folders _ h := h
  made _ h := .inl h
  held _ h := h
  bytes _ _ := rfl
  below _ _ := rfl
  places _ h := nomatch h

theorem trans (h : t.Grown ps u) (k : u.Grown qs v) : t.Grown (ps ++ qs) v where
  folders n hn := k.folders n (h.folders n hn)
  made n hn := by
    rcases k.made n hn with hn | ⟨hnone, p, hp, hstep⟩
    · rcases h.made n hn with hn | ⟨hnone, p, hp, hstep⟩
      · exact .inl hn
      · exact .inr ⟨hnone, p, List.mem_append_left _ hp, hstep⟩
    · exact .inr ⟨h.held n hnone, p, List.mem_append_right _ hp, hstep⟩
  held n hn := h.held n (k.held n hn)
  bytes n hn := by
    rw [k.bytes n fun p hp => hn p (List.mem_append_right _ hp),
      h.bytes n fun p hp => hn p (List.mem_append_left _ hp)]
  below names hnames := by
    rw [k.below names fun p hp => hnames p (List.mem_append_right _ hp),
      h.below names fun p hp => hnames p (List.mem_append_left _ hp)]
  places p hp := by
    rcases List.mem_append.mp hp with hp | hp
    · exact h.places p hp
    · exact k.places p hp

theorem mem_places (h : t.Grown ps u) {p : Path} (hp : p ∈ ps) : p.place ∈ p.places := by
  rw [h.places p hp]
  exact List.mem_append_right _ List.mem_cons_self

theorem mem_places_of_parent (h : t.Grown ps u) {p : Path} (hp : p ∈ ps) {n : List String}
    (hn : n ∈ p.parent.places) : n ∈ p.places := by
  rw [h.places p hp]
  exact List.mem_append_left _ hn

end Grown

theorem Writable.parent_parts (h : t.Writable p) :
    ∃ last, last ≠ ".." ∧ p.parts = p.parent.parts ++ [last] := by
  obtain ⟨init, last, hparts, hlast, -⟩ := h.inFolder
  refine ⟨last, hlast, ?_⟩
  rw [Path.parent, hparts, List.dropLast_concat]

theorem Writable.places_eq (h : t.Writable p) :
    p.places = p.parent.places ++ [p.place] := by
  obtain ⟨last, hlast, hparts⟩ := h.parent_parts
  rw [place_concat hparts hlast, Path.places, hparts, Path.steps_append]
  simp [Path.places, Path.steps, hlast]

theorem makeFolder_eq_ok (h : t.makeFolder p = .ok u) :
    t.Passable [] p.parts ∧ u.walk [] p.parts = .ok (.folder (goal [] p.parts)) ∧
      u.files = t.files ∧ ∀ n, u.isFolder n = true ↔ t.isFolder n = true ∨ n ∈ p.places := by
  unfold makeFolder at h
  split at h
  · have hmade := makeFolders_eq_ok h
    rw [List.reverse_reverse] at hmade
    exact hmade
  · cases h

/-- **Writing a file**, with the folders around it, lets a tree grow. -/
theorem Grown.of_write {bytes : Bytes} (hmake : t.makeFolder p.parent = .ok v)
    (hwrite : v.write p bytes = .ok u) : t.Grown [p] u ∧ u.bytes? p.place = some bytes := by
  obtain ⟨hpassable, -, hfiles, hfolders⟩ := makeFolder_eq_ok hmake
  obtain ⟨hwritable, rfl⟩ := write_eq_ok hwrite
  have hplaces := hwritable.places_eq
  have hbytes : ∀ n, FileTree.bytes? { v with files := put p.place bytes v.files } n =
      if n = p.place then some bytes else t.bytes? n := by
    intro n
    rw [bytes?, lookup_put, hfiles]
    rfl
  refine ⟨⟨?_, ?_, ?_, ?_, ?_, ?_⟩, by rw [hbytes, if_pos rfl]⟩
  · exact fun n hn => (hfolders n).mpr (.inl hn)
  · intro n hn
    rcases (hfolders n).mp hn with hn | hstep
    · exact .inl hn
    · exact (hpassable.bytes?_eq_none hstep).imp_right fun hnone => ⟨hnone, p, by simp, hstep⟩
  · intro n hn
    rw [hbytes] at hn
    split at hn
    · cases hn
    · exact hn
  · intro n hn
    rw [hbytes, if_neg (hn p (by simp))]
  · intro names hnames
    have hnot : names.isPrefixOf p.place = false := by
      simpa [← List.isPrefixOf_iff_prefix] using hnames p (by simp)
    show (put p.place bytes v.files).filterMap _ = _
    rw [filterMap_put (by simp [hnot]), hfiles]
    rfl
  · rintro q hq
    obtain rfl := List.mem_singleton.mp hq
    exact hplaces

theorem Grown.passable (h : t.Grown ps u) {names parts : List String}
    (hpassable : u.Passable names parts) : t.Passable names parts := by
  induction parts generalizing names with
  | nil => trivial
  | cons part rest ih =>
    rw [Passable] at hpassable ⊢
    by_cases hpart : part = ".."
    · rw [if_pos hpart] at hpassable ⊢
      exact ⟨hpassable.1, ih hpassable.2⟩
    · rw [if_neg hpart] at hpassable ⊢
      refine ⟨?_, ih hpassable.2⟩
      rcases hpassable.1 with hfolder | hnone
      · exact (h.made _ hfolder).imp_right And.left
      · exact .inr (h.held _ hnone)

theorem makeFolder_of_passable (hslashes : p.slashes = 0) (h : t.Passable [] p.parts) :
    ∃ u, t.makeFolder p = .ok u := by
  rw [makeFolder, if_pos hslashes]
  exact makeFolders_of_passable (by rwa [List.reverse_reverse])

/-- Nothing grows in a folder that is not there, if no path of a file steps into it. -/
theorem Grown.free (h : t.Grown ps u) {names : List String} (hnames : names ≠ [])
    (houtside : ∀ p ∈ ps, ∀ n ∈ p.places, ¬ names <+: n) (hfree : t.Free names) :
    u.Free names := by
  constructor
  · intro n hn haround
    have hmade : u.isFolder n = true := by simp [isFolder, hn]
    rcases h.made n hmade with hold | ⟨-, p, hp, hstep⟩
    · rcases eq_or_ne n [] with rfl | hroot
      · exact hnames (List.prefix_nil.mp haround)
      · exact hfree.folders n (by simpa [isFolder, hroot] using hold) haround
    · exact houtside p hp n (h.mem_places_of_parent hp hstep) haround
  · intro f hf haround
    -- a file is at the end of a path, or it was there before
    by_cases hwritten : ∃ p ∈ ps, f.1 = p.place
    · obtain ⟨p, hp, hplace⟩ := hwritten
      exact houtside p hp _ (h.mem_places hp) (hplace ▸ haround)
    · have hbytes := h.bytes f.1 fun p hp hplace => hwritten ⟨p, hp, hplace⟩
      have hnone : t.bytes? f.1 = none := by
        rw [bytes?, List.lookup_eq_none_iff]
        intro g hg
        rw [bne_iff_ne]
        exact fun hplace => hfree.files g hg (hplace ▸ haround)
      rw [hnone, bytes?, List.lookup_eq_none_iff] at hbytes
      exact absurd rfl (bne_iff_ne.mp (hbytes f hf))

/-! ## Searching aside of a growth -/

theorem place_of_locate {m : List String} (h : t.locate p = .ok (.folder m)) : m = p.place := by
  unfold locate at h
  split at h
  · exact (walk_eq_folder h).1
  · cases h

/-- Whether the files at the ends of paths are aside of the way to a folder, and of the folder:
nothing is written in it, and no step of the way leads into a folder that is yet to be made, but to
the folders around the one searched. -/
structure Aside (t : FileTree) (ps : List Path) (folder : Path) : Prop where
  outside : ∀ p ∈ ps, ∀ n ∈ p.places, ¬ folder.place <+: n
  way : ∀ p ∈ ps, ∀ n ∈ folder.places, n ∈ p.parent.places →
    t.isFolder n = true ∨ n <+: folder.place

namespace Grown
variable {folder : Path}

/-- The places below a folder that nothing is written in are as before. -/
theorem walk_below (h : t.Grown ps u) {m : List String}
    (houtside : ∀ p ∈ ps, ∀ n ∈ p.places, ¬ m <+: n) {names rest : List String}
    (hnames : m <+: names) (hrest : ".." ∉ rest) : u.walk names rest = t.walk names rest := by
  induction rest generalizing names with
  | nil => rfl
  | cons part rest ih =>
    rw [List.mem_cons, not_or] at hrest
    have hinner : m <+: names ++ [part] := hnames.trans (List.prefix_append _ _)
    have hfolder : u.isFolder (names ++ [part]) = t.isFolder (names ++ [part]) := by
      rw [Bool.eq_iff_iff]
      refine ⟨fun hmade => ?_, h.folders _⟩
      rcases h.made _ hmade with hold | ⟨-, p, hp, hstep⟩
      · exact hold
      · exact absurd hinner (houtside p hp _ (h.mem_places_of_parent hp hstep))
    have hbytes : u.bytes? (names ++ [part]) = t.bytes? (names ++ [part]) := by
      refine h.bytes _ fun p hp hplace => ?_
      exact houtside p hp _ (hplace ▸ h.mem_places hp) hinner
    rw [walk_cons u rest (Ne.symm hrest.1), walk_cons t rest (Ne.symm hrest.1), hfolder, hbytes,
      ih hinner hrest.2]

variable (h : t.Grown ps u) (htree : t.Proper) (haside : t.Aside ps folder)
include h htree haside

theorem locate_folder (m : List String) :
    u.locate folder = .ok (.folder m) ↔ t.locate folder = .ok (.folder m) := by
  unfold locate
  split
  · constructor
    · intro hwalk
      obtain ⟨-, hsteps⟩ := walk_eq_folder hwalk
      have hplace : t.isFolder folder.place = true := by
        by_cases hroot : folder.place = []
        · rw [hroot]
          rfl
        · have hstep := Path.mem_places_of_prefix (List.prefix_refl folder.place) hroot
          rcases h.made _ (hsteps _ hstep) with hold | ⟨-, p, hp, hmade⟩
          · exact hold
          · exact absurd (List.prefix_refl _)
              (haside.outside p hp _ (h.mem_places_of_parent hp hmade))
      refine walk_of_steps hwalk fun n hn => ?_
      -- a step into what has grown is one on the way down, so that the folder itself held it before
      rcases h.made n (hsteps n hn) with hold | ⟨-, p, hp, hmade⟩
      · exact hold
      · exact (haside.way p hp n hn hmade).elim id (htree.isFolder_of_prefix hplace)
    · intro hwalk
      exact walk_of_steps hwalk fun n hn => h.folders n ((walk_eq_folder hwalk).2 n hn)
  · simp

theorem find (patterns exclude : List String) (recursive : Bool) :
    Discovery.find u folder patterns exclude recursive =
      Discovery.find t folder patterns exclude recursive := by
  have hiff := h.locate_folder htree haside
  by_cases hfolder : ∃ m, t.locate folder = .ok (.folder m)
  · obtain ⟨m, hm⟩ := hfolder
    have hbelow : Discovery.filesBelow u m = Discovery.filesBelow t m := by
      refine h.below m fun p hp => ?_
      rw [place_of_locate hm]
      exact haside.outside p hp _ (h.mem_places hp)
    simp only [Discovery.find, (hiff m).mpr hm, hm, hbelow]
  · have hnot : ∀ m, t.locate folder ≠ .ok (.folder m) := fun m hm => hfolder ⟨m, hm⟩
    rw [Discovery.find_of_not_folder hnot,
      Discovery.find_of_not_folder fun m hm => hnot m ((hiff m).mp hm)]

theorem read {patterns exclude : List String} {recursive : Bool} {found : List (List String)}
    (hfound : Discovery.find t folder patterns exclude recursive = .ok found)
    {below : List String} (hbelow : below ∈ found) :
    Discovery.read u (Discovery.pathOf folder below) =
      Discovery.read t (Discovery.pathOf folder below) := by
  obtain ⟨m, hm, f, hf, rfl⟩ := Discovery.mem_of_find hfound hbelow
  have hnames : ".." ∉ f.1.drop m.length := fun hmem => htree.names f hf (List.mem_of_mem_drop hmem)
  have hplace := place_of_locate hm
  have houtside : ∀ p ∈ ps, ∀ n ∈ p.places, ¬ m <+: n := by
    rw [hplace]
    exact haside.outside
  have hum := (h.locate_folder htree haside m).mpr hm
  rw [Discovery.read, Discovery.read, FileTree.read, FileTree.read, Discovery.locate_pathOf hum,
    Discovery.locate_pathOf hm, h.walk_below houtside (List.prefix_refl _) hnames]

theorem fragments (patterns exclude : List String) (recursive : Bool) :
    Discovery.fragments u folder patterns exclude recursive =
      Discovery.fragments t folder patterns exclude recursive := by
  rw [Discovery.fragments, Discovery.fragments, h.find htree haside]
  cases hfound : Discovery.find t folder (Discovery.orUsual Discovery.scriptPatterns patterns)
      exclude recursive with
  | error f => rfl
  | ok found =>
    refine Discovery.mapM_congr fun below hbelow => ?_
    rw [h.read htree haside hfound hbelow]

theorem scenes (patterns exclude : List String) (recursive : Bool) :
    Discovery.scenes u folder patterns exclude recursive =
      Discovery.scenes t folder patterns exclude recursive := by
  rw [Discovery.scenes, Discovery.scenes, h.find htree haside]
  cases hfound : Discovery.find t folder (Discovery.orUsual Discovery.scenePatterns patterns)
      exclude recursive with
  | error f => rfl
  | ok found =>
    refine Discovery.mapM_congr fun below hbelow => ?_
    rw [h.read htree haside hfound hbelow]

end Grown
end FileTree
end Assemblage
