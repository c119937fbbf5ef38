import Assemblage.Files.Tree
import Mathlib.Data.List.Nodup

/-!
# Where a path leads

A path is followed part by part: a name steps into a place, two points step back out of it. The
places that a path steps into (`Path.steps`) decide everything that happens on its way. It leads to
a folder if all of them are folders (`FileTree.walk_eq_folder`, `FileTree.walk_of_steps`), and
making that folder makes folders of exactly those (`FileTree.makeFolders_eq_ok`), which can be done
unless a file stands in the way (`FileTree.Passable`). A file can be written at the place that a
path names if that is in a folder and is none itself (`FileTree.Writable`).
-/

namespace Assemblage
set_option autoImplicit false
open Assemblage.Text (Bytes)

/-! ## The places of a path -/

namespace Path

/-- The places that the parts of a path step into, one after another, from a place on. -/
def steps (names : List String) : List String → List (List String)
  | [] => []
  | part :: rest =>
    if part = ".." then steps names.dropLast rest
    else (names ++ [part]) :: steps (names ++ [part]) rest

/-- The place where the parts of a path lead from a place on. -/
def goal (names parts : List String) : List String :=
  parts.foldl (fun seen part => if part = ".." then seen.dropLast else seen ++ [part]) names

/-- The places that a path steps into. -/
def places (p : Path) : List (List String) := steps [] p.parts

/-- The place that a path names. -/
def place (p : Path) : List String := resolved p.parts

theorem goal_cons (names : List String) (part : String) (rest : List String) :
    goal names (part :: rest) =
      if part = ".." then goal names.dropLast rest else goal (names ++ [part]) rest := by
  by_cases h : part = ".." <;> simp [goal, h]

theorem goal_append (names ps qs : List String) :
    goal names (ps ++ qs) = goal (goal names ps) qs := List.foldl_append

theorem steps_append (names ps qs : List String) :
    steps names (ps ++ qs) = steps names ps ++ steps (goal names ps) qs := by
  induction ps generalizing names with
  | nil => rfl
  | cons part ps ih =>
    rw [List.cons_append, steps, steps, goal_cons]
    by_cases h : part = ".."
    · simp only [if_pos h]
      exact ih _
    · simp only [if_neg h, List.cons_append]
      rw [ih]

end Path

namespace FileTree
open Assemblage.Path (steps goal)

variable {t u : FileTree}

/-! ## Following a path -/

theorem walk_cons (t : FileTree) {names : List String} {part : String} (rest : List String)
    (h : part ≠ "..") :
    t.walk names (part :: rest) =
      if t.isFolder (names ++ [part]) then t.walk (names ++ [part]) rest
      else
        match t.bytes? (names ++ [part]) with
        | some bytes =>
          if rest.isEmpty then .ok (.file (names ++ [part]) bytes) else .error .notFolder
        | none => if rest.isEmpty then .ok (.vacant (names ++ [part])) else .error .missing := by
  rw [walk]
  exact if_neg h

theorem walk_back (t : FileTree) (names rest : List String) :
    t.walk names (".." :: rest) =
      if names.isEmpty then .error .missing else t.walk names.dropLast rest := by
  rw [walk, if_pos rfl]

theorem walk_folder {names : List String} {part : String} (h : part ≠ "..")
    (hfolder : t.isFolder (names ++ [part]) = true) :
    t.walk names [part] = .ok (.folder (names ++ [part])) := by
  rw [walk_cons t [] h, if_pos hfolder]
  rfl

theorem walk_vacant {names : List String} {part : String} (h : part ≠ "..")
    (hfolder : t.isFolder (names ++ [part]) = false) (hbytes : t.bytes? (names ++ [part]) = none) :
    t.walk names [part] = .ok (.vacant (names ++ [part])) := by
  rw [walk_cons t [] h, hfolder, hbytes]
  rfl

/-- A path that leads to a folder steps into folders only. -/
theorem walk_eq_folder {names parts m : List String}
    (h : t.walk names parts = .ok (.folder m)) :
    m = goal names parts ∧ ∀ n ∈ steps names parts, t.isFolder n = true := by
  induction parts generalizing names with
  | nil =>
    cases h
    exact ⟨rfl, by simp [steps]⟩
  | cons part rest ih =>
    rw [Path.goal_cons, steps]
    by_cases hpart : part = ".."
    · subst hpart
      rw [walk_back] at h
      split at h
      · cases h
      · simpa using ih h
    · rw [walk_cons t rest hpart] at h
      simp only [if_neg hpart, List.forall_mem_cons]
      by_cases hfolder : t.isFolder (names ++ [part]) = true
      · rw [if_pos hfolder] at h
        exact ⟨(ih h).1, hfolder, (ih h).2⟩
      · rw [if_neg hfolder] at h
        split at h <;> split at h <;> cases h

/-- A path that leads to a folder of one tree leads to it in every tree where all places that it
steps into are folders. -/
theorem walk_of_steps {names parts m : List String} (h : u.walk names parts = .ok (.folder m))
    (hsteps : ∀ n ∈ steps names parts, t.isFolder n = true) :
    t.walk names parts = .ok (.folder m) := by
  induction parts generalizing names with
  | nil => exact h
  | cons part rest ih =>
    rw [steps] at hsteps
    by_cases hpart : part = ".."
    · subst hpart
      rw [walk_back] at h ⊢
      split at h
      · cases h
      · next hnames =>
        rw [if_neg hnames]
        exact ih h (by simpa using hsteps)
    · rw [walk_cons _ rest hpart] at h ⊢
      rw [if_neg hpart, List.forall_mem_cons] at hsteps
      rw [if_pos hsteps.1]
      split at h
      · exact ih h hsteps.2
      · split at h <;> split at h <;> cases h

theorem walk_append {names ps qs m : List String} (h : t.walk names ps = .ok (.folder m)) :
    t.walk names (ps ++ qs) = t.walk m qs := by
  induction ps generalizing names with
  | nil =>
    cases h
    rfl
  | cons part ps ih =>
    rw [List.cons_append]
    by_cases hpart : part = ".."
    · subst hpart
      rw [walk_back] at h ⊢
      split at h
      · cases h
      · next hnames =>
        rw [if_neg hnames]
        exact ih h
    · rw [walk_cons _ _ hpart] at h ⊢
      split at h
      · next hfolder =>
        rw [if_pos hfolder]
        exact ih h
      · split at h <;> split at h <;> cases h

/-- Whatever a path leads to is in a folder. -/
theorem walk_concat {names ps : List String} {last : String} {place : Place}
    (h : t.walk names (ps ++ [last]) = .ok place) :
    t.walk names ps = .ok (.folder (goal names ps)) := by
  induction ps generalizing names with
  | nil => rfl
  | cons part ps ih =>
    rw [List.cons_append] at h
    rw [Path.goal_cons]
    by_cases hpart : part = ".."
    · subst hpart
      rw [walk_back] at h ⊢
      split at h
      · cases h
      · next hnames =>
        rw [if_neg hnames]
        exact ih h
    · rw [walk_cons _ _ hpart] at h ⊢
      rw [if_neg hpart]
      split at h
      · next hfolder =>
        rw [if_pos hfolder]
        exact ih h
      · split at h <;> simp at h

/-! ## Making folders -/

/-- Whether no part of a path steps into a file, nor back out of the root. -/
def Passable (t : FileTree) (names : List String) : List String → Prop
  | [] => True
  | part :: rest =>
    if part = ".." then names ≠ [] ∧ t.Passable names.dropLast rest
    else
      (t.isFolder (names ++ [part]) = true ∨ t.bytes? (names ++ [part]) = none) ∧
        t.Passable (names ++ [part]) rest

theorem passable_append {names ps qs : List String} :
    t.Passable names (ps ++ qs) ↔ t.Passable names ps ∧ t.Passable (goal names ps) qs := by
  induction ps generalizing names with
  | nil => exact (true_and _).symm ▸ Iff.rfl
  | cons part ps ih =>
    rw [List.cons_append, Passable, Passable, Path.goal_cons]
    by_cases hpart : part = ".." <;> simp only [hpart, if_true, if_false, ih, and_assoc]

theorem passable_of_walk {names parts m : List String}
    (h : t.walk names parts = .ok (.folder m)) : t.Passable names parts := by
  induction parts generalizing names with
  | nil => trivial
  | cons part rest ih =>
    rw [Passable]
    by_cases hpart : part = ".."
    · subst hpart
      rw [walk_back] at h
      split at h
      · cases h
      · next hnames => exact ⟨by simpa using hnames, ih h⟩
    · rw [if_neg hpart]
      rw [walk_cons t rest hpart] at h
      split at h
      · next hfolder => exact ⟨.inl hfolder, ih h⟩
      · split at h <;> split at h <;> cases h

theorem Passable.bytes?_eq_none {names parts : List String} (h : t.Passable names parts)
    {n : List String} (hn : n ∈ steps names parts) : t.isFolder n = true ∨ t.bytes? n = none := by
  induction parts generalizing names with
  | nil => cases hn
  | cons part rest ih =>
    rw [Passable] at h
    rw [steps] at hn
    by_cases hpart : part = ".."
    · rw [if_pos hpart] at h hn
      exact ih h.2 hn
    · rw [if_neg hpart] at h hn
      rcases List.mem_cons.mp hn with rfl | hn
      · exact h.1
      · exact ih h.2 hn

/-- On a passable way, a path that leads nowhere lacks a folder. -/
theorem walk_of_passable {names parts : List String} (h : t.Passable names parts) :
    (∃ m, t.walk names parts = .ok (.folder m)) ∨ (∃ m, t.walk names parts = .ok (.vacant m)) ∨
      t.walk names parts = .error .missing := by
  induction parts generalizing names with
  | nil => exact .inl ⟨names, rfl⟩
  | cons part rest ih =>
    rw [Passable] at h
    by_cases hpart : part = ".."
    · subst hpart
      rw [if_pos rfl] at h
      rw [walk_back, if_neg (by simpa using h.1)]
      exact ih h.2
    · rw [if_neg hpart] at h
      rw [walk_cons t rest hpart]
      by_cases hfolder : t.isFolder (names ++ [part]) = true
      · rw [if_pos hfolder]
        exact ih h.2
      · have hnone := h.1.resolve_left hfolder
        rw [if_neg hfolder, hnone]
        by_cases hrest : rest.isEmpty = true
        · exact .inr (.inl ⟨_, by simp only [hrest, if_true]; rfl⟩)
        · exact .inr (.inr (by simp only [hrest]; rfl))

theorem isFolder_addFolder (t : FileTree) (m n : List String) :
    (t.addFolder m).isFolder n = true ↔ t.isFolder n = true ∨ n = m := by
  unfold addFolder
  by_cases h : t.isFolder m = true
  · rw [if_pos h]
    refine ⟨.inl, ?_⟩
    rintro (hn | rfl)
    · exact hn
    · exact h
  · rw [if_neg h]
    simp [isFolder, or_assoc]

theorem files_addFolder (t : FileTree) (m : List String) : (t.addFolder m).files = t.files := by
  unfold addFolder
  split <;> rfl

/-- Makes the folder that a path leads to, all folders around it being there. -/
def makeLast (t : FileTree) (parts : List String) : Except FileFault FileTree :=
  match t.walk [] parts with
  | .ok (.folder _) => .ok t
  | .ok (.file ..) => .error .taken
  | .ok (.vacant names) => .ok (t.addFolder names)
  | .error f => .error f

theorem makeFolders_cons (t : FileTree) (part : String) (outer : List String) :
    t.makeFolders (part :: outer) =
      match t.walk [] (outer.reverse ++ [part]) with
      | .error .missing => (t.makeFolders outer).bind fun u => u.makeLast (outer.reverse ++ [part])
      | _ => t.makeLast (outer.reverse ++ [part]) := by
  rw [makeFolders, List.reverse_cons]
  cases hwalk : t.walk [] (outer.reverse ++ [part]) with
  | ok place => cases place <;> simp only [makeLast, hwalk]
  | error f =>
    cases f with
    | missing => rfl
    | _ => simp only [makeLast, hwalk]

theorem makeLast_eq_ok {init : List String} {last : String}
    (hinit : t.walk [] init = .ok (.folder (goal [] init)))
    (h : t.makeLast (init ++ [last]) = .ok u) :
    t.Passable (goal [] init) [last] ∧
      u.walk [] (init ++ [last]) = .ok (.folder (goal [] (init ++ [last]))) ∧
      u.files = t.files ∧
      ∀ n, u.isFolder n = true ↔ t.isFolder n = true ∨ n ∈ steps (goal [] init) [last] := by
  have hsteps := (walk_eq_folder hinit).2
  unfold makeLast at h
  rw [walk_append hinit] at h
  by_cases hlast : last = ".."
  · subst hlast
    rw [walk_back] at h
    by_cases hroot : (goal [] init).isEmpty = true
    · rw [if_pos hroot] at h
      cases h
    · rw [if_neg hroot] at h
      cases h
      refine ⟨⟨by simpa using hroot, trivial⟩, ?_, rfl, by simp [steps]⟩
      rw [walk_append hinit, walk_back, if_neg hroot, Path.goal_append, Path.goal_cons, if_pos rfl]
      rfl
  · rw [walk_cons t [] hlast] at h
    have hgoal : goal [] (init ++ [last]) = goal [] init ++ [last] := by
      rw [Path.goal_append, Path.goal_cons, if_neg hlast]
      rfl
    have hstep : steps (goal [] init) [last] = [goal [] init ++ [last]] := by
      simp [steps, hlast]
    rw [hgoal, hstep]
    by_cases hfolder : t.isFolder (goal [] init ++ [last]) = true
    · rw [if_pos hfolder] at h
      cases h
      refine ⟨?_, ?_, rfl, ?_⟩
      · simp [Passable, hlast, hfolder]
      · rw [walk_append hinit, walk_folder hlast hfolder]
      · intro n
        simp only [List.mem_singleton]
        exact ⟨.inl, by rintro (hn | rfl) <;> assumption⟩
    · rw [if_neg hfolder] at h
      cases hbytes : t.bytes? (goal [] init ++ [last]) with
      | some bytes =>
        rw [hbytes] at h
        cases h
      | none =>
        rw [hbytes] at h
        cases h
        refine ⟨?_, ?_, files_addFolder t _, ?_⟩
        · simp [Passable, hlast, hbytes]
        · have hwalk : (t.addFolder (goal [] init ++ [last])).walk [] init =
              .ok (.folder (goal [] init)) :=
            walk_of_steps hinit fun n hn => (isFolder_addFolder t _ n).mpr (.inl (hsteps n hn))
          rw [walk_append hwalk, walk_folder hlast ((isFolder_addFolder t _ _).mpr (.inr rfl))]
        · intro n
          rw [isFolder_addFolder, List.mem_singleton]

theorem makeLast_of_passable {init : List String} {last : String}
    (hinit : t.walk [] init = .ok (.folder (goal [] init)))
    (h : t.Passable (goal [] init) [last]) : ∃ u, t.makeLast (init ++ [last]) = .ok u := by
  unfold makeLast
  rw [walk_append hinit]
  rcases walk_of_passable h with ⟨m, hm⟩ | ⟨m, hm⟩ | hmissing
  · exact ⟨_, by rw [hm]⟩
  · exact ⟨_, by rw [hm]⟩
  · exfalso
    -- with one part to go there is no folder that could be missing
    rw [Passable] at h
    by_cases hlast : last = ".."
    · subst hlast
      rw [if_pos rfl] at h
      rw [walk_back, if_neg (by simpa using h.1)] at hmissing
      cases hmissing
    · rw [walk_cons t [] hlast] at hmissing
      split at hmissing
      · cases hmissing
      · split at hmissing <;> cases hmissing

/-- The last part of a way is as passable once the folders around it have been made. -/
theorem passable_last_of_made {init : List String} {last : String} (h : t.Passable [] init)
    (hfiles : u.files = t.files)
    (hfolders : ∀ n, u.isFolder n = true ↔ t.isFolder n = true ∨ n ∈ steps [] init) :
    u.Passable (goal [] init) [last] ↔ t.Passable (goal [] init) [last] := by
  have hbytes : ∀ n, u.bytes? n = t.bytes? n := fun n => by rw [bytes?, bytes?, hfiles]
  simp only [Passable]
  by_cases hback : last = ".."
  · rw [if_pos hback, if_pos hback]
  · rw [if_neg hback, if_neg hback, hfolders, hbytes]
    refine and_congr ⟨?_, Or.imp_left .inl⟩ Iff.rfl
    rintro ((hfolder | hstep) | hnone)
    · exact .inl hfolder
    · exact h.bytes?_eq_none hstep
    · exact .inr hnone

/-- **Making a folder** makes folders of exactly the places that its path steps into, and touches
no file. -/
theorem makeFolders_eq_ok {reversed : List String} (h : t.makeFolders reversed = .ok u) :
    t.Passable [] reversed.reverse ∧
      u.walk [] reversed.reverse = .ok (.folder (goal [] reversed.reverse)) ∧
      u.files = t.files ∧
      ∀ n, u.isFolder n = true ↔ t.isFolder n = true ∨ n ∈ steps [] reversed.reverse := by
  induction reversed generalizing u with
  | nil =>
    cases h
    exact ⟨trivial, rfl, rfl, by simp [steps]⟩
  | cons part outer ih =>
    rw [makeFolders_cons] at h
    rw [List.reverse_cons]
    split at h
    · cases hv : t.makeFolders outer with
      | error f =>
        rw [hv] at h
        cases h
      | ok v =>
        rw [hv] at h
        obtain ⟨hpassable, hwalk, hfiles, hfolders⟩ := ih hv
        obtain ⟨hlast, hwalk', hfiles', hfolders'⟩ := makeLast_eq_ok hwalk h
        refine ⟨passable_append.mpr ⟨hpassable,
          (passable_last_of_made hpassable hfiles hfolders).mp hlast⟩,
          hwalk', hfiles'.trans hfiles, fun n => ?_⟩
        rw [hfolders', hfolders, Path.steps_append, List.mem_append, or_assoc]
    · obtain ⟨place, hplace⟩ : ∃ place, t.walk [] (outer.reverse ++ [part]) = .ok place := by
        cases hplace : t.walk [] (outer.reverse ++ [part]) with
        | ok place => exact ⟨place, rfl⟩
        | error f =>
          rw [makeLast, hplace] at h
          cases h
      have hinit := walk_concat hplace
      obtain ⟨hlast, hwalk', hfiles, hfolders⟩ := makeLast_eq_ok hinit h
      refine ⟨passable_append.mpr ⟨passable_of_walk hinit, hlast⟩, hwalk', hfiles, fun n => ?_⟩
      rw [hfolders, Path.steps_append, List.mem_append]
      constructor
      · rintro (hn | hn)
        · exact .inl hn
        · exact .inr (.inr hn)
      · rintro (hn | hn | hn)
        · exact .inl hn
        · exact .inl ((walk_eq_folder hinit).2 n hn)
        · exact .inr hn

theorem makeFolders_of_passable {reversed : List String} (h : t.Passable [] reversed.reverse) :
    ∃ u, t.makeFolders reversed = .ok u := by
  induction reversed with
  | nil => exact ⟨t, rfl⟩
  | cons part outer ih =>
    rw [List.reverse_cons] at h
    obtain ⟨hinit, hlast⟩ := passable_append.mp h
    rw [makeFolders_cons]
    rcases walk_of_passable h with ⟨m, hm⟩ | ⟨m, hm⟩ | hmissing
    · exact ⟨t, by simp only [hm, makeLast]⟩
    · exact ⟨t.addFolder m, by simp only [hm, makeLast]⟩
    · obtain ⟨v, hv⟩ := ih hinit
      obtain ⟨-, hwalk, hfiles, hfolders⟩ := makeFolders_eq_ok hv
      simp only [hmissing, hv]
      exact makeLast_of_passable hwalk ((passable_last_of_made hinit hfiles hfolders).mpr hlast)

/-! ## Writing files -/

/-- Whether a path leads to a place in a folder, where no folder is. -/
structure Writable (t : FileTree) (p : Path) : Prop where
  relative : p.slashes = 0
  inFolder : ∃ init last, p.parts = init ++ [last] ∧ last ≠ ".." ∧
    t.walk [] init = .ok (.folder (goal [] init))
  noFolder : t.isFolder p.place = false

theorem place_concat {p : Path} {init : List String} {last : String}
    (hparts : p.parts = init ++ [last]) (hlast : last ≠ "..") :
    p.place = goal [] init ++ [last] := by
  have hplace : p.place = goal [] p.parts := rfl
  rw [hplace, hparts, Path.goal_append, Path.goal_cons, if_neg hlast]
  rfl

theorem Writable.locate {p : Path} (h : t.Writable p) :
    t.locate p =
      match t.bytes? p.place with
      | some bytes => .ok (.file p.place bytes)
      | none => .ok (.vacant p.place) := by
  obtain ⟨init, last, hparts, hlast, hwalk⟩ := h.inFolder
  have hplace := place_concat hparts hlast
  have hfolder := h.noFolder
  rw [FileTree.locate, if_pos h.relative, hparts, walk_append hwalk, walk_cons t [] hlast,
    ← hplace, hfolder]
  cases t.bytes? p.place <;> rfl

theorem Writable.read {p : Path} (h : t.Writable p) :
    t.read p =
      match t.bytes? p.place with
      | some bytes => .ok bytes
      | none => .error .missing := by
  rw [FileTree.read, h.locate]
  cases t.bytes? p.place <;> rfl

theorem Writable.write {p : Path} (h : t.Writable p) (bytes : Bytes) :
    t.write p bytes = .ok { t with files := put p.place bytes t.files } := by
  rw [FileTree.write, h.locate]
  cases t.bytes? p.place <;> rfl

theorem write_eq_ok {p : Path} {bytes : Bytes} (h : t.write p bytes = .ok u) :
    t.Writable p ∧ u = { t with files := put p.place bytes t.files } := by
  have hwritable : t.Writable p := by
    unfold FileTree.write FileTree.locate at h
    by_cases hslashes : p.slashes = 0
    · rw [if_pos hslashes] at h
      rcases List.eq_nil_or_concat' p.parts with hnil | ⟨init, last, hparts⟩
      · rw [hnil] at h
        cases h
      · cases hplace : t.walk [] p.parts with
        | error f =>
          rw [hplace] at h
          cases h
        | ok place =>
          rw [hplace] at h
          have hwalk := hplace
          rw [hparts] at hwalk
          have hinit := walk_concat hwalk
          rw [walk_append hinit] at hwalk
          by_cases hlast : last = ".."
          · subst hlast
            rw [walk_back] at hwalk
            split at hwalk <;> cases hwalk
            cases h
          · refine ⟨hslashes, ⟨init, last, hparts, hlast, hinit⟩, ?_⟩
            rw [place_concat hparts hlast]
            by_contra hfolder
            rw [walk_folder hlast (by simpa using hfolder)] at hwalk
            cases hwalk
            cases h
    · rw [if_neg hslashes] at h
      cases h
  refine ⟨hwritable, ?_⟩
  rw [hwritable.write] at h
  cases h
  rfl

theorem Writable.of_folders {p : Path} (h : t.Writable p) (hfolders : u.folders = t.folders) :
    u.Writable p := by
  have hfolder : ∀ n, u.isFolder n = t.isFolder n := fun n => by rw [isFolder, isFolder, hfolders]
  obtain ⟨init, last, hparts, hlast, hwalk⟩ := h.inFolder
  refine ⟨h.relative, ⟨init, last, hparts, hlast, walk_of_steps hwalk fun n hn => ?_⟩, ?_⟩
  · rw [hfolder]
    exact (walk_eq_folder hwalk).2 n hn
  · rw [hfolder]
    exact h.noFolder

theorem lookup_of_nodup {files : List (List String × Bytes)} (h : (files.map Prod.fst).Nodup)
    {names : List String} {bytes : Bytes} (hmem : (names, bytes) ∈ files) :
    files.lookup names = some bytes := by
  obtain ⟨front, back, rfl⟩ := List.append_of_mem hmem
  rw [List.lookup_eq_some_iff]
  refine ⟨front, back, rfl, fun f hf => ?_⟩
  rw [bne_iff_ne]
  rintro rfl
  rw [List.map_append, List.map_cons, List.nodup_middle, List.nodup_cons] at h
  exact h.1 (List.mem_append_left _ (List.mem_map.mpr ⟨f, hf, rfl⟩))

theorem lookup_put (names m : List String) (bytes : Bytes) (files : List (List String × Bytes)) :
    (put names bytes files).lookup m = if m = names then some bytes else files.lookup m := by
  induction files with
  | nil =>
    rw [put, List.lookup_cons, List.lookup_nil]
    by_cases h : m = names <;> simp [h, beq_eq_false_iff_ne.mpr]
  | cons f rest ih =>
    rw [put]
    by_cases h : m = names
    · subst h
      rw [if_pos rfl] at ih ⊢
      by_cases hf : f.1 = m
      · rw [if_pos hf, List.lookup_cons, beq_self_eq_true]
      · rw [if_neg hf, List.lookup_cons, beq_eq_false_iff_ne.mpr (Ne.symm hf), ih]
    · rw [if_neg h] at ih ⊢
      by_cases hf : f.1 = names
      · rw [if_pos hf, List.lookup_cons, List.lookup_cons, hf, beq_eq_false_iff_ne.mpr h]
      · rw [if_neg hf, List.lookup_cons, List.lookup_cons, ih]

theorem put_new {names : List String} {bytes : Bytes} {files : List (List String × Bytes)}
    (h : ∀ f ∈ files, f.1 ≠ names) : put names bytes files = files ++ [(names, bytes)] := by
  induction files with
  | nil => rfl
  | cons f rest ih =>
    obtain ⟨hf, hrest⟩ := List.forall_mem_cons.mp h
    rw [put, if_neg hf, ih hrest]
    rfl

/-- What is taken from files is the same after a file has been written, if nothing is taken from
that one. -/
theorem filterMap_put {β : Type} {g : List String × Bytes → Option β} {names : List String}
    (hg : ∀ bytes, g (names, bytes) = none) (bytes : Bytes) (files : List (List String × Bytes)) :
    (put names bytes files).filterMap g = files.filterMap g := by
  induction files with
  | nil => simp [put, hg]
  | cons f rest ih =>
    obtain ⟨place, held⟩ := f
    rw [put]
    by_cases hf : place = names
    · subst hf
      rw [if_pos rfl, List.filterMap_cons_none (hg bytes), List.filterMap_cons_none (hg held)]
    · rw [if_neg hf, List.filterMap_cons, List.filterMap_cons, ih]

/-- A file that has been written is read back. -/
theorem read_of_write {p : Path} {bytes : Bytes} (h : t.write p bytes = .ok u) :
    u.read p = .ok bytes := by
  obtain ⟨hwritable, rfl⟩ := write_eq_ok h
  have hwritten := hwritable.of_folders (u := { t with files := put p.place bytes t.files }) rfl
  rw [hwritten.read]
  simp only [bytes?, lookup_put, if_pos]

/-! ## Trees without a folder -/

/-- Whether there is nothing at a place, nor below it. -/
structure Free (names : List String) (t : FileTree) : Prop where
  folders : ∀ n ∈ t.folders, ¬ names <+: n
  files : ∀ f ∈ t.files, ¬ names <+: f.1

instance (names : List String) (t : FileTree) : Decidable (t.Free names) :=
  decidable_of_iff ((∀ n ∈ t.folders, ¬ names <+: n) ∧ ∀ f ∈ t.files, ¬ names <+: f.1)
    ⟨fun h => ⟨h.1, h.2⟩, fun h => ⟨h.folders, h.files⟩⟩

end FileTree

end Assemblage
