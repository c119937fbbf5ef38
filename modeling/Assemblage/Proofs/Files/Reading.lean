import Assemblage.Proofs.Files.Discovery
import Assemblage.Proofs.Header.LineEnds
import Assemblage.Proofs.Text.WellFormed

/-!
# Reading a file

A file can be read if its bytes, without one byte-order mark in front, are well-formed, or if it is
nothing but the beginning of a mark. What is read are the lines of its text, each terminator as one
line feed (`Line.unified`, `Splits.unifyBreaks_eq`).

A text without carriage returns can be stored with any line ends, and with a mark in front
(`Discovery.Stores`): it is read as it is, and a folder of such files makes the same fragments
however they are stored (`Discovery.fragments_stored`).

Main statement: `Discovery.read_wellFormed`.
-/

namespace Assemblage
set_option autoImplicit false
open Assemblage.Text

namespace Text

/-! ## Line feeds -/

/-- A line with a line feed as its terminator, if it has one. -/
def Line.unified (l : Line) : List Char := l.content ++ if l.terminator = [] then [] else ['\n']

theorem unifyBreaks_cons {c : Char} (h : c ≠ '\r') (s : List Char) :
    unifyBreaks (c :: s) = c :: unifyBreaks s := by
  rw [unifyBreaks, if_neg h]
  rintro rest rfl
  exact absurd rfl h

theorem unifyBreaks_return {s : List Char} (h : s.head? ≠ some '\n') :
    unifyBreaks ('\r' :: s) = '\n' :: unifyBreaks s := by
  rw [unifyBreaks, if_pos rfl]
  rintro rest - rfl
  exact h rfl

theorem unifyBreaks_append {content : List Char} (h : ∀ c ∈ content, isBreak c = false)
    (rest : List Char) : unifyBreaks (content ++ rest) = content ++ unifyBreaks rest := by
  induction content with
  | nil => rfl
  | cons c content ih =>
    obtain ⟨hc, hcontent⟩ := List.forall_mem_cons.mp h
    have hreturn : c ≠ '\r' := by
      rintro rfl
      exact absurd hc (by decide)
    rw [List.cons_append, unifyBreaks_cons hreturn, ih hcontent, List.cons_append]

theorem Splits.unifyBreaks_eq {start : Nat} {s : List Char} {lines : List Line}
    (h : Splits start s lines) : unifyBreaks s = lines.flatMap Line.unified := by
  induction h with
  | nil => rfl
  | @cons start content terminator rest lines plain ended more ih =>
    rw [List.append_assoc, unifyBreaks_append plain, List.flatMap_cons, ← ih]
    cases ended with
    | both => simp [Line.unified, unifyBreaks]
    | carriageReturn _ hrest => simp [Line.unified, unifyBreaks_return hrest]
    | lineFeed => simp [Line.unified, unifyBreaks_cons]
    | endOfText => simp [Line.unified, unifyBreaks]

/-- Line feeds that have been replaced come back. -/
theorem unifyBreaks_convert (e : Header.LineEnd) {t : List Char} (h : '\r' ∉ t) :
    unifyBreaks (e.convert t) = t := by
  induction t with
  | nil => rfl
  | cons c t ih =>
    rw [List.mem_cons, not_or] at h
    have hrest := ih h.2
    rw [e.convert_cons]
    by_cases hc : c = '\n'
    · subst hc
      rw [if_pos rfl]
      cases e with
      | lineFeed => simp [Header.LineEnd.chars, unifyBreaks_cons, hrest]
      | both => simp [Header.LineEnd.chars, unifyBreaks, hrest]
      | carriageReturn =>
        have hhead : (Header.LineEnd.carriageReturn.convert t).head? ≠ some '\n' := fun hmem =>
          Header.LineEnd.lineFeed_not_mem_convert t (List.mem_of_mem_head? hmem)
        simp [Header.LineEnd.chars, unifyBreaks_return hhead, hrest]
    · rw [if_neg hc, List.singleton_append, unifyBreaks_cons (Ne.symm h.1), hrest]

/-! ## Marks -/

theorem not_wellFormed_of_takeChar? {s : Bytes} (hne : s ≠ []) (h : takeChar? s = none) :
    ¬ WellFormed s := by
  rintro ⟨t, ht⟩
  rw [utf8_iff] at ht
  cases t with
  | nil => exact hne ht
  | cons c t =>
    have hread : takeChar? (encodeUtf8 (c :: t)) = some (c, encodeUtf8 t) := takeChar?_encodeChar c _
    rw [← ht, h] at hread
    cases hread

theorem isCutMark_iff {s : Bytes} : isCutMark s = true ↔ s = [0xef] ∨ s = [0xef, 0xbb] := by
  rw [isCutMark, Bool.or_eq_true, beq_iff_eq, beq_iff_eq]

/-- The beginning of a mark is no mark, and not well-formed. -/
theorem not_wellFormed_of_isCutMark {s : Bytes} (h : isCutMark s = true) :
    ¬ WellFormed (dropMark s) := by
  rcases isCutMark_iff.mp h with rfl | rfl
  · exact not_wellFormed_of_takeChar? (List.cons_ne_nil _ _) (by decide)
  · exact not_wellFormed_of_takeChar? (List.cons_ne_nil _ _) (by decide)

theorem decodeFile_iff {bytes : Bytes} {s : List Char} :
    decodeFile bytes = .ok s ↔
      Utf8 (dropMark bytes) s ∨ isCutMark bytes = true ∧ s = [] := by
  unfold decodeFile
  by_cases hcut : isCutMark bytes = true
  · have hbad := not_wellFormed_of_isCutMark hcut
    rw [if_pos hcut, Except.ok.injEq]
    constructor
    · rintro rfl
      exact .inr ⟨hcut, rfl⟩
    · rintro (hs | ⟨-, rfl⟩)
      · exact absurd ⟨s, hs⟩ hbad
      · rfl
  · rw [if_neg hcut, decodeUtf8_iff]
    simp [hcut]

end Text

namespace Discovery

variable {t u : FileTree} {p folder folder' : Path} {bytes : Bytes} {s : List Char}

theorem read_eq (h : t.read p = .ok bytes) :
    read t p =
      match decodeFile bytes with
      | .ok s => .ok (String.ofList (unifyBreaks s))
      | .error offset => .error (.notUtf8 p offset) := by
  rw [read, h]
  unfold decode
  dsimp only
  cases decodeFile bytes <;> rfl

/-! ## Stored texts -/

/-- Whether bytes are those of a text, with any line ends, and maybe a mark in front. -/
def Stores (bytes : Bytes) (s : List Char) : Prop :=
  ∃ mark ∈ [[], markBytes], ∃ e : Header.LineEnd, bytes = mark ++ encodeUtf8 (e.convert s)

theorem Stores.dropMark_eq (h : Stores bytes s) (hmark : s.head? ≠ some '\ufeff') :
    ∃ e : Header.LineEnd, dropMark bytes = encodeUtf8 (e.convert s) := by
  obtain ⟨mark, hmem, e, rfl⟩ := h
  refine ⟨e, ?_⟩
  rcases List.mem_cons.mp hmem with rfl | hmem
  · exact dropMark_encodeUtf8 (e.head?_convert hmark)
  · rw [List.mem_singleton.mp hmem]
    rfl

theorem Stores.read_eq (h : Stores bytes s) (hreturn : '\r' ∉ s) (hmark : s.head? ≠ some '\ufeff')
    (hread : t.read p = .ok bytes) : read t p = .ok (String.ofList s) := by
  obtain ⟨e, hbytes⟩ := h.dropMark_eq hmark
  have hdecode : decodeFile bytes = .ok (e.convert s) :=
    decodeFile_iff.mpr (.inl (utf8_iff.mpr hbytes))
  rw [Discovery.read_eq hread, hdecode]
  simp only [unifyBreaks_convert e hreturn]

/-- Whether two folders have the same files below them, and the wanted ones store the same texts. -/
structure SameTexts (t : FileTree) (folder : Path) (u : FileTree) (folder' : Path)
    (wanted : List String → Prop) : Prop where
  below : ∀ below, u.HasBelow folder' below ↔ t.HasBelow folder below
  text : ∀ below, t.HasBelow folder below → wanted below →
    ∃ s, '\r' ∉ s ∧ s.head? ≠ some '\ufeff' ∧
      (∃ bytes, t.read (pathOf folder below) = .ok bytes ∧ Stores bytes s) ∧
      ∃ bytes, u.read (pathOf folder' below) = .ok bytes ∧ Stores bytes s

theorem fragments_stored {patterns exclude : List String} {recursive : Bool} (ht : t.Sound)
    (hu : u.Sound) (hfolder : t.hasFolder folder = true) (hfolder' : u.hasFolder folder' = true)
    (h : SameTexts t folder u folder'
      (Wanted (orUsual scriptPatterns patterns) exclude recursive)) :
    fragments u folder' patterns exclude recursive =
      fragments t folder patterns exclude recursive := by
  obtain ⟨found, hfind, hlisting⟩ := exists_listing ht hfolder
  rw [fragments, fragments, hfind, find_eq hlisting hu hfolder' h.below]
  refine mapM_congr fun below hbelow => ?_
  obtain ⟨hfile, hwanted⟩ := (hlisting.mem_iff below).mp hbelow
  obtain ⟨s, hreturn, hmark, ⟨bytes, hbytes, hstores⟩, bytes', hbytes', hstores'⟩ :=
    h.text below hfile hwanted
  rw [hstores.read_eq hreturn hmark hbytes, hstores'.read_eq hreturn hmark hbytes']

/-! ## The main statement -/

/-- **A file is read if and only if it is well-formed** behind one mark, or the beginning of a mark:
as its lines with line feeds. So a text is read alike however its lines end, with a mark in front or
without, and makes the same fragments. -/
theorem read_wellFormed (h : t.read p = .ok bytes) :
    ((∃ offset, read t p = .error (.notUtf8 p offset)) ↔
        ¬ WellFormed (dropMark bytes) ∧ bytes ≠ [0xef] ∧ bytes ≠ [0xef, 0xbb]) ∧
      (∀ s lines, Utf8 (dropMark bytes) s → Splits 0 s lines →
        read t p = .ok (String.ofList (lines.flatMap Line.unified))) ∧
      (bytes = [0xef] ∨ bytes = [0xef, 0xbb] → read t p = .ok "") ∧
      (∀ s, '\r' ∉ s → s.head? ≠ some '\ufeff' → Stores bytes s →
        read t p = .ok (String.ofList s)) ∧
      ∀ (u : FileTree) (folder folder' : Path) (patterns exclude : List String) (recursive : Bool),
        t.Sound → u.Sound → t.hasFolder folder = true → u.hasFolder folder' = true →
        SameTexts t folder u folder'
          (Wanted (orUsual scriptPatterns patterns) exclude recursive) →
        fragments u folder' patterns exclude recursive =
          fragments t folder patterns exclude recursive := by
  refine ⟨?_, fun s lines hs hlines => ?_, fun hbytes => ?_,
    fun s hreturn hmark hstores => hstores.read_eq hreturn hmark h,
    fun u folder folder' patterns exclude recursive ht hu hfolder hfolder' hsame =>
      fragments_stored ht hu hfolder hfolder' hsame⟩
  · have hiff : (∃ s, decodeFile bytes = .ok s) ↔
        WellFormed (dropMark bytes) ∨ bytes = [0xef] ∨ bytes = [0xef, 0xbb] := by
      simp only [decodeFile_iff, exists_or, isCutMark_iff, exists_and_left, exists_eq, and_true, WellFormed]
    rw [← not_or, ← not_or, ← hiff, read_eq h]
    cases decodeFile bytes <;> simp
  · rw [read_eq h, decodeFile_iff.mpr (.inl hs)]
    simp only [hlines.unifyBreaks_eq]
  · rw [read_eq h, decodeFile_iff.mpr (.inr ⟨isCutMark_iff.mpr hbytes, rfl⟩)]
    rfl

def oneScript (bytes : Bytes) : FileTree := .ofList [(["Scripts", "A.cs"], bytes)] []

/-- A script with a mark and both breaks at its line ends, beside one without. -/
theorem read_wellFormed_marked :
    let s := "using A;\nclass B;\n".toList
    let t := oneScript (markBytes ++ encodeUtf8 (Header.LineEnd.both.convert s))
    t.read ⟨0, ["Scripts", "A.cs"]⟩ =
        .ok (markBytes ++ encodeUtf8 "using A;\r\nclass B;\r\n".toList) ∧
      read t ⟨0, ["Scripts", "A.cs"]⟩ = .ok (String.ofList s) ∧
      fragments (oneScript (encodeUtf8 s)) ⟨0, ["Scripts"]⟩ [] [] true =
        fragments t ⟨0, ["Scripts"]⟩ [] [] true := by
  intro s t
  have hbytes : t.read ⟨0, ["Scripts", "A.cs"]⟩ =
      .ok (markBytes ++ encodeUtf8 (Header.LineEnd.both.convert s)) := by
    decide +kernel
  have hconvert : Header.LineEnd.both.convert s = "using A;\r\nclass B;\r\n".toList := by
    decide +kernel
  have hreturn : '\r' ∉ s := by decide +kernel
  have hmark : s.head? ≠ some '\ufeff' := by decide +kernel
  have hmarked : Stores (markBytes ++ encodeUtf8 (Header.LineEnd.both.convert s)) s :=
    ⟨markBytes, by simp, .both, rfl⟩
  have hplain : Stores (encodeUtf8 s) s := by
    refine ⟨[], by simp, .lineFeed, ?_⟩
    decide +kernel
  have hsound : t.Sound := by decide +kernel
  have hsound' : (oneScript (encodeUtf8 s)).Sound := by decide +kernel
  have hbelow : ∀ bytes below, (oneScript bytes).Sound →
      ((oneScript bytes).HasBelow ⟨0, ["Scripts"]⟩ below ↔ below = ["A.cs"]) := by
    intro bytes below h
    rw [h.hasBelow_iff (m := ["Scripts"]) rfl]
    simp only [oneScript, FileTree.ofList]
    simp
    rintro rfl
    exact List.cons_ne_nil _ _
  obtain ⟨-, -, -, hread, hfragments⟩ := read_wellFormed hbytes
  refine ⟨by rw [hbytes, hconvert], hread s hreturn hmark hmarked, ?_⟩
  refine hfragments _ _ _ _ _ _ hsound hsound' (by decide +kernel) (by decide +kernel)
    ⟨fun below => ?_, fun below hfile _ => ?_⟩
  · rw [hbelow _ _ hsound, hbelow _ _ hsound']
  · rw [hbelow _ _ hsound] at hfile
    subst hfile
    exact ⟨s, hreturn, hmark, ⟨_, hbytes, hmarked⟩, _, by decide +kernel, hplain⟩

/-- Bytes of another encoding: the fault counts the bytes in front of it. -/
example : read (.ofList [(["A.cs"], [0x2f, 0x2f, 0xe9, 0x0a])] []) ⟨0, ["A.cs"]⟩ =
    .error (.notUtf8 ⟨0, ["A.cs"]⟩ 2) := by decide +kernel

end Discovery
end Assemblage
