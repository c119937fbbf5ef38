import Assemblage.Proofs.Header.Hoisted
import Assemblage.Proofs.Header.Recognition

/-!
# Directives outside of a header

A text without a directive in its header is searched once more, for any line that holds one. Where
the keywords are names, a line that holds a directive is neither blank nor a comment
(`kind_of_hasDirective`), so both searches agree on every line. What the second one finds is
therefore behind the line at which the first one stopped.

Main statement: `extract_stray`.
-/

namespace Assemblage.Header
set_option autoImplicit false
open Assemblage.Text Assemblage.Directive

/-- Whether a line holds a directive, the byte-order marks in front of it aside. -/
def Reference.HasDirective (g : DirectiveGrammar) (line : Line) : Prop :=
  line.content.dropWhile (· == '\ufeff') ∈ Grammar.line g.keywords

variable {g : DirectiveGrammar} {line : Line}

/-! ## One test of a line and the other -/

theorem isSome_recognise_iff {keywords : List String} {content : List Char} :
    (recognise keywords content).isSome = true ↔ content ∈ Grammar.line keywords := by
  rw [holds_iff, Option.isSome_iff_exists]
  constructor
  · rintro ⟨clause, h⟩
    exact ⟨clause, holds_of_recognise h⟩
  · rintro ⟨clause, h⟩
    exact recognise_of_holds h

theorem isSome_directive?_iff :
    (directive? g line.content).isSome = true ↔ Reference.HasDirective g line :=
  isSome_recognise_iff

/-- A line that holds a directive is one to the scan. -/
theorem kind_of_hasDirective (hk : ∀ k ∈ g.keywords, IsName k)
    (h : Reference.HasDirective g line) :
    ∃ clause, Reference.kind g line.content = .directive clause := by
  obtain ⟨clause, padding, tail, hline, hpadding, hclause, -⟩ := holds_iff.mp h
  obtain ⟨c, rest, rfl, hc⟩ := clause_head_of_name hk hclause
  have hslash : c ≠ '/' := by
    rintro rfl
    exact absurd hc (by decide)
  -- what is in front of the keyword is passed over by both searches
  have hfillers : ∀ d ∈ line.content.takeWhile (· == '\ufeff') ++ padding,
      Reference.isFiller d = true := by
    intro d hd
    rcases List.mem_append.mp hd with hd | hd
    · have hmark := List.mem_takeWhile_imp hd
      simp only [Reference.isFiller, hmark, Bool.or_true]
    · have hpad := hpadding d hd
      simp only [isPadding] at hpad
      simp only [Reference.isFiller, hpad, Bool.true_or]
  have hcontent : line.content =
      line.content.takeWhile (· == '\ufeff') ++ padding ++ c :: (rest ++ tail) := by
    conv_lhs => rw [← List.takeWhile_append_dropWhile (p := (· == '\ufeff')) (l := line.content)]
    rw [hline]
    simp only [List.append_assoc, List.cons_append]
  have hdrop : line.content.dropWhile Reference.isFiller = c :: (rest ++ tail) := by
    rw [hcontent]
    refine dropWhile_append_stop hfillers fun d hd => ?_
    obtain rfl : c = d := by simpa using hd
    exact isFiller_of_isNameStart hc
  obtain ⟨found, hfound⟩ := Option.isSome_iff_exists.mp (isSome_recognise_iff.mpr h)
  exact ⟨found, by rw [kind_of_dropWhile hdrop hslash, hfound]⟩

theorem isSome_clause?_iff (hk : ∀ k ∈ g.keywords, IsName k) :
    (Reference.clause? g line).isSome = true ↔ Reference.HasDirective g line := by
  constructor
  · intro h
    obtain ⟨clause, hclause⟩ := Option.isSome_iff_exists.mp h
    exact isSome_recognise_iff.mp (by rw [recognise_of_clause? hclause]; rfl)
  · intro h
    obtain ⟨clause, hclause⟩ := kind_of_hasDirective hk h
    rw [clause?_of_kind hclause]
    rfl

theorem not_hasDirective_of_other (hk : ∀ k ∈ g.keywords, IsName k)
    (h : Reference.kind g line.content = .other) : ¬ Reference.HasDirective g line := by
  intro hline
  obtain ⟨clause, hclause⟩ := kind_of_hasDirective hk hline
  rw [h] at hclause
  cases hclause

/-! ## The second search -/

theorem directives_eq_nil_iff (hk : ∀ k ∈ g.keywords, IsName k) {lines : List Line} :
    Reference.directives g lines = [] ↔
      ∀ line ∈ Reference.headerLines g lines, ¬ Reference.HasDirective g line := by
  rw [Reference.directives, List.map_eq_nil_iff, List.filterMap_eq_nil_iff]
  refine forall₂_congr fun line _ => ?_
  rw [← isSome_clause?_iff hk, Option.not_isSome_iff_eq_none]

theorem stray_eq (g : DirectiveGrammar) (text : List Char) :
    (extract g text).stray =
      if (extract g text).directives = [] then stray? g (physicalLines text) else none := by
  rw [directives_eq_scan]
  unfold extract
  cases hlast : (scan g (physicalLines text)).getLast? with
  | none => simp [List.getLast?_eq_none_iff.mp hlast]
  | some last =>
    have hne : scan g (physicalLines text) ≠ [] := by
      intro hnil
      rw [hnil] at hlast
      cases hlast
    simp [hlast, hne]

/-- The header lines, and the line at which the scan stopped, if it is not the end of the text. -/
theorem headerLines_cases (g : DirectiveGrammar) (lines : List Line) :
    Reference.headerLines g lines = lines ∨ ∃ other rest,
      lines = Reference.headerLines g lines ++ other :: rest ∧
        Reference.kind g other.content = .other := by
  have hparts := List.takeWhile_append_dropWhile
    (p := fun line : Line => Reference.kind g line.content != .other) (l := lines)
  cases hrest : lines.dropWhile fun line => Reference.kind g line.content != .other with
  | nil =>
    rw [hrest, List.append_nil] at hparts
    exact .inl hparts
  | cons other rest =>
    rw [hrest] at hparts
    refine .inr ⟨other, rest, hparts.symm, ?_⟩
    have hstop := head?_dropWhile_false other (by rw [hrest]; rfl)
    simpa using hstop

/-- What the second search finds, if there is nothing in the header. -/
theorem stray?_eq_some (hk : ∀ k ∈ g.keywords, IsName k) {lines : List Line} {s : Stray}
    (hnone : Reference.directives g lines = []) (h : stray? g lines = some s) :
    ∃ other between line after,
      lines = Reference.headerLines g lines ++ other :: between ++ line :: after ∧
      Reference.kind g other.content = .other ∧ Reference.HasDirective g line ∧
      (∀ l ∈ Reference.headerLines g lines ++ other :: between, ¬ Reference.HasDirective g l) ∧
      s = ⟨line.content, line.start⟩ := by
  have hheader := (directives_eq_nil_iff hk).mp hnone
  obtain ⟨line, hfind, rfl⟩ := Option.map_eq_some_iff.mp h
  obtain ⟨hline, -⟩ := List.find?_eq_some_iff_append.mp hfind
  rcases headerLines_cases g lines with hall | ⟨other, rest, hlines, hother⟩
  · have hmem := List.mem_of_find?_eq_some hfind
    rw [← hall] at hmem
    exact absurd (isSome_directive?_iff.mp hline) (hheader line hmem)
  · have hnot := not_hasDirective_of_other hk hother
    rw [hlines, List.find?_append, List.find?_eq_none.mpr, Option.none_or,
      List.find?_cons_of_neg] at hfind
    · obtain ⟨-, between, after, hrest, hbetween⟩ := List.find?_eq_some_iff_append.mp hfind
      refine ⟨other, between, line, after, ?_, hother, isSome_directive?_iff.mp hline, ?_, rfl⟩
      · rw [List.append_assoc, List.cons_append, ← hrest]
        exact hlines
      · intro l hl
        rcases List.mem_append.mp hl with hl | hl
        · exact hheader l hl
        · rcases List.mem_cons.mp hl with rfl | hl
          · exact hnot
          · have hfalse := hbetween l hl
            rw [← isSome_directive?_iff]
            simpa using hfalse
    · rwa [isSome_directive?_iff]
    · intro l hl
      rw [isSome_directive?_iff]
      exact hheader l hl

/-- A report names the place of its line. -/
theorem message_eq (s : Stray) (source : Option String) :
    ∃ front, s.message source = front ++ "' at offset " ++ toString s.offset ++
      " is outside the header; treating the whole text as body" := by
  refine ⟨(source.filter (· != "")).getD "fragment" ++ ": directive '" ++
    String.ofList (trim isBlank s.line), ?_⟩
  have hend : " is outside the header; treating the whole text as body" =
      " is outside the header; treating the whole " ++ "text as body" := by decide
  rw [hend, ← String.append_assoc]
  rfl

/-! ## The main statement -/

/-- **A directive outside of the header is reported exactly if there is none in it.** Then the
first line that holds a directive is reported, and no other; in front of it there are all lines that
were scanned and the line at which the scan stopped, which is neither blank, nor a comment that is
passed over, nor a directive. -/
theorem extract_stray (hk : ∀ k ∈ g.keywords, IsName k) (text : List Char)
    (source : Option String) :
    let lines := physicalLines text
    let e := extract g text
    let reports := (e.stray.map (Stray.message source)).toList
    (reports ≠ [] ↔ e.directives = [] ∧ ∃ line ∈ lines, Reference.HasDirective g line) ∧
    ∀ report ∈ reports, reports = [report] ∧ ∃ other between line after,
      let before := Reference.headerLines g lines ++ other :: between
      lines = before ++ line :: after ∧ Reference.kind g other.content = .other ∧
      Reference.HasDirective g line ∧ (∀ l ∈ before, ¬ Reference.HasDirective g l) ∧
      text.take line.start = before.flatMap Line.text ∧
      ∃ front, report = front ++ "' at offset " ++ toString line.start ++
        " is outside the header; treating the whole text as body" := by
  intro lines e reports
  have hstray := stray_eq g text
  constructor
  · have hreports : reports ≠ [] ↔ (extract g text).stray.isSome = true := by
      cases hs : (extract g text).stray <;> simp [reports, e, hs]
    rw [hreports, hstray]
    by_cases hnone : (extract g text).directives = []
    · rw [if_pos hnone, stray?, Option.isSome_map, List.find?_isSome]
      simp only [isSome_directive?_iff, e, hnone, true_and, lines]
    · simp [hnone, e]
  · intro report hreport
    obtain ⟨s, hs, rfl⟩ := Option.map_eq_some_iff.mp (Option.mem_toList.mp hreport)
    refine ⟨by simp [reports, hs], ?_⟩
    have hs : (extract g text).stray = some s := hs
    rw [hstray] at hs
    split at hs
    · next hnone =>
      rw [extract_directives] at hnone
      obtain ⟨other, between, line, after, hlines, hother, hline, hbefore, rfl⟩ :=
        stray?_eq_some hk hnone hs
      refine ⟨other, between, line, after, hlines, hother, hline, hbefore, ?_, ?_⟩
      · have hsplits := splits_physicalLines text
        rw [hlines] at hsplits
        exact hsplits.take_start
      · exact message_eq _ source
    · cases hs

/-- A directive behind a comment and a class is reported with its place. -/
theorem extract_stray_behind_class :
    let text := "// a\nclass B;\n\tusing C; // d".toList
    let report := "F.cs: directive 'using C; // d' at offset 14 is outside the header; treating " ++
      "the whole text as body"
    (∀ k ∈ DirectiveGrammar.usual.keywords, IsName k) ∧
      ((extract .usual text).stray.map (Stray.message (some "F.cs"))).toList = [report] ∧
      ∃ other between line after,
        physicalLines text =
          Reference.headerLines .usual (physicalLines text) ++ other :: between ++ line :: after ∧
        Reference.HasDirective .usual line := by
  intro text report
  have hreports :
      ((extract .usual text).stray.map (Stray.message (some "F.cs"))).toList = [report] := by
    decide +kernel
  obtain ⟨-, hreport⟩ := extract_stray isName_using text (some "F.cs")
  obtain ⟨-, other, between, line, after, hlines, -, hline, -⟩ :=
    hreport report (by rw [hreports]; exact List.mem_singleton_self report)
  exact ⟨isName_using, hreports, other, between, line, after, hlines, hline⟩

end Assemblage.Header
