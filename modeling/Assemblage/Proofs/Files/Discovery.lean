import Assemblage.Proofs.Files.Pattern
import Assemblage.Proofs.Files.Sound

/-!
# Searching a folder

What a search of a folder finds is settled by which files are below it and by the names that are
wanted (`Discovery.Wanted`): it lists exactly those, in the strict order of their names, so that
there is one list only (`Discovery.Listing`). Neither the order of the entries of the tree nor the
place of the folder matters.

Every file that is found makes one fragment (`Discovery.Holds`), unless one of them is no text.

Main statement: `Discovery.search_listing`.
-/

namespace Assemblage
set_option autoImplicit false
open Assemblage.Text (Bytes)

/-! ## The order of names -/

namespace Path

-- `≤` on lists of strings is another relation once Mathlib's order on them is imported, `<` is not
theorem partsLe_iff (s t : List String) : partsLe s t = true ↔ ¬ t < s := by
  induction s generalizing t with
  | nil => exact iff_of_true rfl (List.not_lt_nil t)
  | cons a s ih =>
    cases t with
    | nil => exact iff_of_false Bool.false_ne_true (not_not_intro (List.nil_lt_cons a s))
    | cons b t =>
      have hcons : ¬ b :: t < a :: s ↔ a < b ∨ a = b ∧ ¬ t < s := List.cons_le_cons_iff
      rw [hcons, partsLe, Bool.or_eq_true, Bool.and_eq_true, decide_eq_true_eq, beq_iff_eq, ih]

theorem pairwise_mergeSort (xs : List (List String)) :
    (xs.mergeSort partsLe).Pairwise fun a b => ¬ b < a := by
  have hsorted : (xs.mergeSort partsLe).Pairwise fun a b => partsLe a b = true := by
    refine List.pairwise_mergeSort (fun a b c hab hbc => ?_) (fun a b => ?_) xs
    · rw [partsLe_iff] at *
      exact List.le_trans hab hbc
    · rw [Bool.or_eq_true, partsLe_iff, partsLe_iff]
      exact List.le_total a b
  exact hsorted.imp fun h => (partsLe_iff _ _).mp h

theorem nodup_of_increasing {xs : List (List String)} (h : xs.Pairwise (· < ·)) : xs.Nodup :=
  List.Pairwise.imp (fun {a b} (hlt : a < b) (heq : a = b) => List.lt_irrefl b (heq ▸ hlt)) h

/-- An increasing list is settled by its members. -/
theorem eq_of_mem_iff {xs ys : List (List String)} (hxs : xs.Pairwise (· < ·))
    (hys : ys.Pairwise (· < ·)) (h : ∀ a, a ∈ xs ↔ a ∈ ys) : xs = ys := by
  have hperm : xs.Perm ys :=
    (List.perm_ext_iff_of_nodup (nodup_of_increasing hxs) (nodup_of_increasing hys)).mpr h
  exact hperm.eq_of_pairwise (fun _ _ _ _ hab hba => absurd hba (List.lt_asymm hab)) hxs hys

end Path

namespace Discovery
open Pattern (Covers)

variable {t u : FileTree} {folder folder' : Path} {patterns exclude : List String}
  {recursive : Bool} {found : List (List String)}

/-! ## What is wanted -/

/-- Whether a file below a folder is wanted: right in it or, where folders are followed, further
down; by its name; and by no name on the way to it. -/
structure Wanted (patterns exclude : List String) (recursive : Bool) (below : List String) :
    Prop where
  near : recursive = true ∨ below.length = 1
  named : ∃ p ∈ patterns, Covers (Pattern.ofString p) (below.getLastD "").toList
  free : ∀ part ∈ below, ∀ p ∈ exclude, ¬ Covers (Pattern.ofString p) part.toList

theorem isWanted_iff (below : List String) :
    isWanted patterns exclude recursive below = true ↔
      Wanted patterns exclude recursive below := by
  have hfree : (!below.any (matchesAny exclude)) = true ↔
      ∀ part ∈ below, ∀ p ∈ exclude, ¬ Covers (Pattern.ofString p) part.toList := by
    simp [← Bool.not_eq_true, matchesAny_iff]
  unfold isWanted
  rw [Bool.and_eq_true, Bool.and_eq_true, matchesAny_iff, hfree, Bool.or_eq_true, beq_iff_eq]
  exact ⟨fun h => ⟨h.1.1, h.1.2, h.2⟩, fun h => ⟨⟨h.near, h.named⟩, h.free⟩⟩

theorem mem_filesBelow {m below : List String} :
    below ∈ filesBelow t m ↔ below ≠ [] ∧ ∃ bytes, (m ++ below, bytes) ∈ t.files := by
  unfold filesBelow
  rw [List.mem_filterMap]
  constructor
  · rintro ⟨⟨names, bytes⟩, hmem, hdrop⟩
    split at hdrop
    · next hinside =>
      rw [Bool.and_eq_true, List.isPrefixOf_iff_prefix, decide_eq_true_eq] at hinside
      obtain ⟨⟨rest, rfl⟩, hlength⟩ := hinside
      rw [List.drop_left, Option.some.injEq] at hdrop
      subst hdrop
      refine ⟨?_, bytes, hmem⟩
      rintro rfl
      simp at hlength
    · cases hdrop
  · rintro ⟨hne, bytes, hmem⟩
    have hlength : 0 < below.length := List.length_pos_of_ne_nil hne
    refine ⟨_, hmem, ?_⟩
    simp [List.isPrefixOf_iff_prefix, hlength]

theorem nodup_filesBelow (h : (t.files.map Prod.fst).Nodup) (m : List String) :
    (filesBelow t m).Nodup := by
  have hnames : filesBelow t m = (t.files.map Prod.fst).filterMap fun names =>
      if m.isPrefixOf names && m.length < names.length then some (names.drop m.length)
      else none := by
    rw [List.filterMap_map]
    rfl
  rw [hnames]
  refine h.filterMap fun names names' below hbelow hbelow' => ?_
  -- both are the folder with the same names behind it
  rw [Option.mem_def] at hbelow hbelow'
  split at hbelow
  · next hinside =>
    split at hbelow'
    · next hinside' =>
      rw [Bool.and_eq_true, List.isPrefixOf_iff_prefix] at hinside hinside'
      obtain ⟨⟨rest, rfl⟩, -⟩ := hinside
      obtain ⟨⟨rest', rfl⟩, -⟩ := hinside'
      rw [List.drop_left, Option.some.injEq] at hbelow hbelow'
      rw [hbelow, hbelow']
    · cases hbelow'
  · cases hbelow

/-! ## What is found -/

/-- Whether a list is that of the wanted files below a folder: it has exactly those, in the strict
order of their names. -/
structure Listing (t : FileTree) (folder : Path) (patterns exclude : List String)
    (recursive : Bool) (found : List (List String)) : Prop where
  mem_iff : ∀ below, below ∈ found ↔
    t.HasBelow folder below ∧ Wanted patterns exclude recursive below
  increasing : found.Pairwise (· < ·)

/-- Folders with the same files below them have the same listing. -/
theorem Listing.eq {found' : List (List String)}
    (h : Listing t folder patterns exclude recursive found)
    (h' : Listing u folder' patterns exclude recursive found')
    (hsame : ∀ below, u.HasBelow folder' below ↔ t.HasBelow folder below) : found' = found := by
  refine Path.eq_of_mem_iff h'.increasing h.increasing fun below => ?_
  rw [h'.mem_iff, h.mem_iff, hsame]

theorem exists_listing (h : t.Sound) (hfolder : t.hasFolder folder = true) :
    ∃ found, find t folder patterns exclude recursive = .ok found ∧
      Listing t folder patterns exclude recursive found := by
  obtain ⟨m, hm⟩ : ∃ m, t.locate folder = .ok (.folder m) := by
    unfold FileTree.hasFolder at hfolder
    split at hfolder
    · next m hm => exact ⟨m, hm⟩
    · cases hfolder
  have hfind : find t folder patterns exclude recursive = .ok
      (((filesBelow t m).filter (isWanted patterns exclude recursive)).mergeSort Path.partsLe) := by
    simp only [find, hm]
  have hnodup : (((filesBelow t m).filter (isWanted patterns exclude recursive)).mergeSort
      Path.partsLe).Nodup :=
    (List.mergeSort_perm _ _).nodup_iff.mpr ((nodup_filesBelow h.distinct m).filter _)
  refine ⟨_, hfind, fun below => ?_, ?_⟩
  · rw [List.mem_mergeSort, List.mem_filter, isWanted_iff, mem_filesBelow, h.hasBelow_iff hm]
  · refine ((Path.pairwise_mergeSort _).and hnodup).imp fun {a b} hab => ?_
    by_contra hlt
    exact hab.2 (List.le_antisymm hab.1 hlt)

theorem find_eq (hlisting : Listing t folder patterns exclude recursive found) (hu : u.Sound)
    (hfolder' : u.hasFolder folder' = true)
    (hsame : ∀ below, u.HasBelow folder' below ↔ t.HasBelow folder below) :
    find u folder' patterns exclude recursive = .ok found := by
  obtain ⟨found', hfind, hlisting'⟩ := exists_listing hu hfolder'
  rw [hfind, hlisting.eq hlisting' hsame]

theorem find_perm (h : t.Sound) (hfolder : t.hasFolder folder = true)
    (hlisting : Listing t folder patterns exclude recursive found)
    (hfolders : u.folders.Perm t.folders) (hfiles : u.files.Perm t.files) :
    find u folder patterns exclude recursive = .ok found := by
  have hlocate := h.locate_perm hfolders hfiles
  refine find_eq hlisting (h.of_perm hfolders hfiles) ?_ fun below => ?_
  · rw [FileTree.hasFolder, hlocate]
    exact hfolder
  · rw [FileTree.HasBelow, FileTree.HasBelow, hlocate]

/-! ## Fragments -/

/-- Whether a fragment is that of a file below a folder: with its text, under the names that lead to
it and, where folders are followed, with the folders among them as its namespace. -/
structure Holds (t : FileTree) (folder : Path) (recursive : Bool) (below : List String)
    (f : Fragment) : Prop where
  text : read t (pathOf folder below) = .ok f.text
  source : f.source = some (Path.toString ⟨0, below⟩)
  hint : f.hint =
    if recursive = true ∧ 1 < below.length then some (".".intercalate below.dropLast) else none

theorem mapM_cases {ε α β : Type} (f : α → Except ε β) (xs : List α) :
    (∃ ys, xs.mapM f = .ok ys ∧ List.Forall₂ (fun x y => f x = .ok y) xs ys) ∨
      ∃ x ∈ xs, ∃ e, f x = .error e ∧ xs.mapM f = .error e := by
  induction xs with
  | nil => exact .inl ⟨[], rfl, .nil⟩
  | cons x xs ih =>
    cases hx : f x with
    | error e => exact .inr ⟨x, List.mem_cons_self, e, hx, by rw [List.mapM_cons, hx]; rfl⟩
    | ok y =>
      rcases ih with ⟨ys, hys, hall⟩ | ⟨x', hx', e, herror, hxs⟩
      · exact .inl ⟨y :: ys, by rw [List.mapM_cons, hx, hys]; rfl, .cons hx hall⟩
      · exact .inr ⟨x', List.mem_cons_of_mem _ hx', e, herror, by rw [List.mapM_cons, hx, hxs]; rfl⟩

/-- A file can be read unless its bytes are no text. -/
theorem read_of_hasBelow {below : List String} (h : t.HasBelow folder below) {f : InputFault}
    (hread : read t (pathOf folder below) = .error f) :
    ∃ offset, f = .notUtf8 (pathOf folder below) offset := by
  obtain ⟨-, place, bytes, hfile⟩ := h
  have hbytes : t.read (pathOf folder below) = .ok bytes := by rw [FileTree.read, hfile]
  rw [read, hbytes] at hread
  dsimp only at hread
  split at hread
  · cases hread
  · next offset _ =>
    cases hread
    exact ⟨offset, rfl⟩

theorem fragments_cases (hlisting :
      Listing t folder (orUsual scriptPatterns patterns) exclude recursive found)
    (hfind : find t folder (orUsual scriptPatterns patterns) exclude recursive = .ok found) :
    (∃ fs, fragments t folder patterns exclude recursive = .ok fs ∧
        List.Forall₂ (Holds t folder recursive) found fs) ∨
      ∃ below ∈ found, ∃ offset,
        read t (pathOf folder below) = .error (.notUtf8 (pathOf folder below) offset) ∧
        fragments t folder patterns exclude recursive =
          .error (.notUtf8 (pathOf folder below) offset) := by
  have hmapM : fragments t folder patterns exclude recursive = found.mapM fun below => do
      let text ← read t (pathOf folder below)
      return ⟨text, if recursive then hint below else none, some ("/".intercalate below)⟩ := by
    rw [fragments, hfind]
    rfl
  rw [hmapM]
  rcases mapM_cases _ found with ⟨fs, hfs, hall⟩ | ⟨below, hbelow, e, herror, hfs⟩
  · have hne : ∀ below ∈ found, below ≠ [] := by
      rintro _ hbelow rfl
      obtain ⟨m, hm, -⟩ := mem_of_find hfind hbelow
      obtain ⟨-, place, bytes, hfile⟩ := ((hlisting.mem_iff _).mp hbelow).1
      rw [locate_pathOf hm] at hfile
      cases hfile
    refine .inl ⟨fs, hfs, ((List.forall₂_and_left _ _).mpr ⟨hne, hall⟩).imp ?_⟩
    rintro below f ⟨hbelow, hf⟩
    cases hread : read t (pathOf folder below) with
    | error e =>
      rw [hread] at hf
      cases hf
    | ok text =>
      rw [hread] at hf
      cases hf
      refine ⟨hread, ?_, ?_⟩
      · simp [Path.toString, hbelow]
      · cases recursive with
        | false => rfl
        | true =>
          rw [if_pos rfl, hint]
          by_cases hlength : below.length ≤ 1
          · rw [if_pos hlength, if_neg (by omega)]
          · rw [if_neg hlength, if_pos ⟨rfl, by omega⟩]
  · refine .inr ⟨below, hbelow, ?_⟩
    cases hread : read t (pathOf folder below) with
    | ok text =>
      rw [hread] at herror
      cases herror
    | error f =>
      rw [hread] at herror
      cases herror
      obtain ⟨offset, rfl⟩ := read_of_hasBelow ((hlisting.mem_iff below).mp hbelow).1 hread
      exact ⟨offset, rfl, hfs⟩

/-- **A search lists the wanted files below a folder**, whatever the order of the entries of the tree
and wherever the folder is, and every file that it lists makes a fragment. -/
theorem search_listing (h : t.Sound) (hfolder : t.hasFolder folder = true)
    (patterns exclude : List String) (recursive : Bool) :
    (∃ found, find t folder patterns exclude recursive = .ok found ∧
        Listing t folder patterns exclude recursive found ∧ found.Nodup ∧
        (∀ u : FileTree, u.folders.Perm t.folders → u.files.Perm t.files →
          find u folder patterns exclude recursive = .ok found) ∧
        ∀ (u : FileTree) (folder' : Path), u.Sound → u.hasFolder folder' = true →
          (∀ below, u.HasBelow folder' below ↔ t.HasBelow folder below) →
          find u folder' patterns exclude recursive = .ok found) ∧
      ∃ found, Listing t folder (orUsual scriptPatterns patterns) exclude recursive found ∧
        ((∃ fs, fragments t folder patterns exclude recursive = .ok fs ∧
            List.Forall₂ (Holds t folder recursive) found fs) ∨
          ∃ below ∈ found, ∃ offset,
            read t (pathOf folder below) = .error (.notUtf8 (pathOf folder below) offset) ∧
            fragments t folder patterns exclude recursive =
              .error (.notUtf8 (pathOf folder below) offset)) := by
  constructor
  · obtain ⟨found, hfind, hlisting⟩ := exists_listing h hfolder
    exact ⟨found, hfind, hlisting, Path.nodup_of_increasing hlisting.increasing,
      fun u => find_perm h hfolder hlisting, fun u folder' => find_eq hlisting⟩
  · obtain ⟨found, hfind, hlisting⟩ := exists_listing h hfolder
    exact ⟨found, hlisting, fragments_cases hlisting hfind⟩

/-- Scripts in folders, one of which has the name of a script. -/
def scripts : FileTree :=
  let text := Text.encodeUtf8 "class A {}".toList
  .ofList [(["Scripts", "Combat.cs"], text), (["Scripts", "obj", "Made.cs"], text),
    (["Scripts", "notes.txt"], text), (["Scripts", "Combat", "Moves", "Throw.cs"], text),
    (["Scripts", "Combat", "Grab.cs"], text), (["Other.cs"], text)] [["Empty"]]

theorem isWanted_scripts : isWanted ["*.cs"] ["obj"] true = fun below =>
    ".cs".toList.isSuffixOf (below.getLastD "").toList && below.all (· != "obj") := by
  have hplain : Pattern.Plain ".cs".toList ∧ Pattern.Plain "obj".toList := by decide
  have hcs := covers_of_ending hplain.1
  have hobj := covers_of_plain hplain.2
  have hending : "*" ++ ".cs" = "*.cs" := rfl
  rw [hending] at hcs
  funext below
  rw [Bool.eq_iff_iff, isWanted_iff, Bool.and_eq_true, List.isSuffixOf_iff_suffix, ← hcs]
  constructor
  · rintro ⟨-, hnamed, hfree⟩
    exact ⟨by simpa using hnamed, by simpa [hobj] using hfree⟩
  · rintro ⟨hnamed, hfree⟩
    exact ⟨.inl rfl, by simpa using hnamed, by simpa [hobj] using hfree⟩

theorem search_listing_scripts :
    scripts.Sound ∧ scripts.hasFolder ⟨0, ["Scripts"]⟩ = true ∧
      Listing scripts ⟨0, ["Scripts"]⟩ ["*.cs"] ["obj"] true
        [["Combat", "Grab.cs"], ["Combat", "Moves", "Throw.cs"], ["Combat.cs"]] ∧
      ∃ fs, fragments scripts ⟨0, ["Scripts"]⟩ ["*.cs"] ["obj"] true = .ok fs ∧
        fs.map Fragment.hint = [some "Combat", some "Combat.Moves", none] := by
  have hsound : scripts.Sound := by decide +kernel
  have hfolder : scripts.hasFolder ⟨0, ["Scripts"]⟩ = true := by decide +kernel
  obtain ⟨⟨found, hfind, hlisting, -⟩, found', hlisting', hfragments⟩ :=
    search_listing hsound hfolder ["*.cs"] ["obj"] true
  rw [hlisting.eq hlisting' fun _ => Iff.rfl] at hfragments
  have hfound : found =
      [["Combat", "Grab.cs"], ["Combat", "Moves", "Throw.cs"], ["Combat.cs"]] := by
    have hfilter : found.Perm ((filesBelow scripts ["Scripts"]).filter fun below =>
        ".cs".toList.isSuffixOf (below.getLastD "").toList && below.all (· != "obj")) := by
      rw [← isWanted_scripts]
      cases hfind
      exact List.mergeSort_perm _ _
    have hperm : found.Perm
        [["Combat", "Grab.cs"], ["Combat", "Moves", "Throw.cs"], ["Combat.cs"]] :=
      hfilter.trans (by decide +kernel)
    exact Path.eq_of_mem_iff hlisting.increasing (by decide +kernel) fun _ => hperm.mem_iff
  rw [hfound] at hlisting hfragments
  refine ⟨hsound, hfolder, hlisting, ?_⟩
  rcases hfragments with ⟨fs, hfs, hall⟩ | ⟨below, hbelow, offset, hread, -⟩
  · refine ⟨fs, hfs, ?_⟩
    rcases hall with _ | ⟨hgrab, _ | ⟨hthrow, _ | ⟨hcombat, _ | _⟩⟩⟩
    simp [hgrab.hint, hthrow.hint, hcombat.hint]
  · have hok : ∀ below ∈ [["Combat", "Grab.cs"], ["Combat", "Moves", "Throw.cs"], ["Combat.cs"]],
        read scripts (pathOf ⟨0, ["Scripts"]⟩ below) = .ok "class A {}" := by
      decide +kernel
    rw [hok below hbelow] at hread
    cases hread

end Discovery
end Assemblage
