import Assemblage.Proofs.Header.Directive
import Assemblage.Proofs.Header.Extraction

/-!
# Directives on lines of their own

A directive that was found once is alone on a line again, without anything around it (`Hoisted`).
A line that starts like a name and holds no semicolon ends a header (`kind_scaffold`).
-/

namespace Assemblage
set_option autoImplicit false
open Assemblage.Text Assemblage.Directive Assemblage.Header

/-- A text that is a directive as a line of its own. -/
structure Hoisted (g : DirectiveGrammar) (d : List Char) : Prop where
  plain : ∀ c ∈ d, isBreak c = false
  kind : Reference.kind g d = .directive d
  normal : Directive.normalize d = d
  core : d.rdropWhile (fun c => c == ' ' || c == '\t') = d

theorem clause_ends {keywords : List String} (hk : ∀ k ∈ keywords, IsName k) {w : List Char}
    (hw : w ∈ Grammar.clause keywords) :
    ∃ c middle, w = c :: (middle ++ [';']) ∧ isNameStart c = true := by
  obtain ⟨c, rest, rfl, hc⟩ := clause_head_of_name hk hw
  obtain ⟨u, hu, -⟩ := clause_split (fun k hm => (hk k hm).opens.unended) hw
  cases u with
  | nil =>
    obtain ⟨rfl, -⟩ := List.cons.inj hu
    exact absurd hc (by decide)
  | cons d u =>
    obtain ⟨rfl, rfl⟩ := List.cons.inj hu
    exact ⟨c, u, rfl, hc⟩

theorem isFiller_of_isNameStart {c : Char} (hc : isNameStart c = true) :
    Reference.isFiller c = false :=
  not_of_isNameStart hc (by grind [Reference.isFiller])

theorem isMargin_of_isNameStart {c : Char} (hc : isNameStart c = true) : isMargin c = false :=
  not_of_isNameStart hc (by grind [isMargin, isPadding, isBreak, isMark])

theorem isBreak_of_isNameStart {c : Char} (hc : isNameStart c = true) : isBreak c = false :=
  not_of_isNameStart hc (by grind [isBreak])

theorem dropWhile_head {p : Char → Bool} {c : Char} (rest : List Char) (hc : p c = false) :
    (c :: rest).dropWhile p = c :: rest :=
  List.dropWhile_cons_of_neg (by simp [hc])

theorem normalize_clause {keywords : List String} (hk : ∀ k ∈ keywords, IsName k) {w : List Char}
    (hw : w ∈ Grammar.clause keywords) : Directive.normalize w = w := by
  obtain ⟨c, middle, rfl, hc⟩ := clause_ends hk hw
  rw [Directive.normalize, trim, dropWhile_head _ (isMargin_of_isNameStart hc),
    trimEnd_eq_rdropWhile, ← List.cons_append]
  exact List.rdropWhile_concat_neg _ _ _ (by decide)

/-- A line that is not blank and no comment is known by its directive. -/
theorem kind_of_dropWhile {g : DirectiveGrammar} {content : List Char} {c : Char}
    {rest : List Char} (hdrop : content.dropWhile Reference.isFiller = c :: rest)
    (hslash : c ≠ '/') :
    Reference.kind g content =
      match recognise g.keywords (content.dropWhile (· == '\ufeff')) with
      | some clause => .directive clause
      | none => .other := by
  have hblank : content.all Reference.isFiller = false := by
    rw [← Bool.not_eq_true, List.all_eq_true]
    intro hall
    rw [List.dropWhile_eq_nil_iff.mpr hall] at hdrop
    cases hdrop
  have hcomment : "//".toList.isPrefixOf (c :: rest) = false := by
    have hne : ('/' == c) = false := by simpa using fun e => hslash e.symm
    simp [List.isPrefixOf, hne]
  unfold Reference.kind
  rw [hdrop, hcomment, hblank]
  cases recognise g.keywords (content.dropWhile (· == '\ufeff')) <;> simp

theorem kind_of_head {g : DirectiveGrammar} {c : Char} {rest : List Char}
    (hfiller : Reference.isFiller c = false) (hslash : c ≠ '/') :
    Reference.kind g (c :: rest) =
      match recognise g.keywords (c :: rest) with
      | some clause => .directive clause
      | none => .other := by
  have hmark : (c == '\ufeff') = false := by
    simp only [Reference.isFiller, Bool.or_eq_false_iff] at hfiller
    exact hfiller.2
  rw [kind_of_dropWhile (dropWhile_head rest hfiller) hslash,
    dropWhile_head (p := (· == '\ufeff')) rest hmark]

theorem hoisted_clause {g : DirectiveGrammar} (hk : ∀ k ∈ g.keywords, IsName k) {w : List Char}
    (hw : w ∈ Grammar.clause g.keywords) (hplain : ∀ c ∈ w, isBreak c = false) : Hoisted g w := by
  obtain ⟨c, middle, hchars, hc⟩ := clause_ends hk hw
  have hslash : c ≠ '/' := by
    rintro rfl
    exact absurd hc (by decide)
  have hholds : Holds g.keywords w w := ⟨[], [], by simp, by simp, hw, rfl⟩
  have hrecognise := (recognise_iff fun k hm => (hk k hm).opens).mpr hholds
  refine ⟨hplain, ?_, normalize_clause hk hw, ?_⟩
  · rw [hchars] at hrecognise ⊢
    rw [kind_of_head (isFiller_of_isNameStart hc) hslash, hrecognise]
  · rw [hchars, ← List.cons_append]
    exact List.rdropWhile_concat_neg _ _ _ (by decide)

theorem recognise_of_clause? {g : DirectiveGrammar} {line : Line} {clause : List Char}
    (h : Reference.clause? g line = some clause) :
    recognise g.keywords (line.content.dropWhile (· == '\ufeff')) = some clause := by
  have hkind : Reference.kind g line.content = .directive clause := by
    unfold Reference.clause? at h
    split at h
    · next found hfound => rw [hfound, Option.some.inj h]
    · cases h
  unfold Reference.kind at hkind
  split at hkind
  · cases hkind
  · split at hkind
    · cases hkind
    · split at hkind
      · next found hfound => rw [hfound, LineKind.directive.inj hkind]
      · cases hkind

/-- Whatever an extraction finds can stand on a line of its own. -/
theorem hoisted_of_extract {g : DirectiveGrammar} (hk : ∀ k ∈ g.keywords, IsName k)
    {text d : List Char} (hd : d ∈ (extract g text).directives) : Hoisted g d := by
  rw [extract_directives] at hd
  obtain ⟨clause, hclause, rfl⟩ := List.mem_map.mp hd
  obtain ⟨line, hline, hkind⟩ := List.mem_filterMap.mp hclause
  have hmem : line ∈ physicalLines text := (List.takeWhile_sublist _).subset hline
  have hplain := (splits_physicalLines text).content_ne_break line hmem
  obtain ⟨padding, tail, hcontent, -, hw, -⟩ := holds_of_recognise (recognise_of_clause? hkind)
  rw [normalize_clause hk hw]
  refine hoisted_clause hk hw ?_
  intro c hc
  refine hplain c ((List.dropWhile_sublist (· == '\ufeff')).subset ?_)
  rw [hcontent]
  simp [hc]

/-- A line without a semicolon that starts like a name ends a header. -/
theorem kind_scaffold {g : DirectiveGrammar} (hk : ∀ k ∈ g.keywords, IsName k) {c : Char}
    {rest : List Char} (hc : isNameStart c = true) (hrest : ';' ∉ c :: rest) :
    Reference.kind g (c :: rest) = .other := by
  have hslash : c ≠ '/' := by
    rintro rfl
    exact absurd hc (by decide)
  rw [kind_of_head (isFiller_of_isNameStart hc) hslash]
  cases hfound : recognise g.keywords (c :: rest) with
  | none => rfl
  | some clause =>
    obtain ⟨padding, tail, hline, -, hw, -⟩ := holds_of_recognise hfound
    obtain ⟨u, hu, -⟩ := clause_split (fun k hm => (hk k hm).opens.unended) hw
    exact absurd (by rw [hline, hu]; simp) hrest

/-! ## The first line of a text -/

/-- Behind a hoisted line the header goes on as if the text began there. -/
theorem extract_line {g : DirectiveGrammar} {d rest : List Char} (hd : Hoisted g d)
    (hrest : Follows rest) :
    let more := extract g (cutBreak rest).2
    (extract g (d ++ rest)).directives = d :: more.directives ∧
      (extract g (d ++ rest)).body (d ++ rest) =
        if more.directives = [] then rest else more.body (cutBreak rest).2 := by
  have hne : d ≠ [] := by
    rintro rfl
    cases hd.kind
  have hend : contentEnd ⟨0, d, (cutBreak rest).1⟩ = d.length := by
    rw [contentEnd, Nat.zero_add]
    exact congrArg List.length hd.core
  have hscan : scan g (physicalLines (d ++ rest)) = (d, d.length) ::
      (scan g (physicalLines (cutBreak rest).2)).map fun found =>
        (found.1, d.length + (cutBreak rest).1.length + found.2) := by
    rw [physicalLines_append hd.plain (fun _ => hne) hrest, scan, kind_eq, hd.kind]
    simp only [hend, hd.normal]
    rw [physicalLines, ← scan_number_add, Nat.add_zero]
  refine ⟨?_, ?_⟩
  · rw [directives_eq_scan, directives_eq_scan, hscan]
    simp
  · rw [Extraction.body, Extraction.body, span_eq_scan, span_eq_scan, directives_eq_scan, hscan]
    cases hlast : (scan g (physicalLines (cutBreak rest).2)).getLast? with
    | none => simp [List.getLast?_eq_none_iff.mp hlast, Span.upTo]
    | some last =>
      have hfound : scan g (physicalLines (cutBreak rest).2) ≠ [] := by
        intro hnil
        rw [hnil] at hlast
        cases hlast
      have hbehind : d ++ rest = d ++ (cutBreak rest).1 ++ (cutBreak rest).2 := by
        rw [List.append_assoc, cutBreak_append]
      have hdrop : (d ++ rest).drop (d.length + (cutBreak rest).1.length + last.2) =
          (cutBreak rest).2.drop last.2 := by
        rw [hbehind, ← List.length_append, ← List.drop_drop, List.drop_left]
      simp [Span.upTo, List.getLast?_cons, hlast, hfound, hdrop]

/-- A first line that is nothing of a header leaves the header empty. -/
theorem extract_of_other {g : DirectiveGrammar} {content rest : List Char}
    (hplain : ∀ c ∈ content, isBreak c = false) (hkind : Reference.kind g content = .other)
    (hrest : Follows rest) : (extract g (content ++ rest)).directives = [] := by
  have hne : content ≠ [] := by
    rintro rfl
    cases hkind
  rw [directives_eq_scan, physicalLines_append hplain (fun _ => hne) hrest, scan, kind_eq, hkind]
  rfl

end Assemblage
