import Assemblage.Header.Extraction
import Assemblage.Proofs.Text.Lines
import Mathlib.Data.List.DropRight

/-!
# The header as a prefix of lines

`Reference` reads a header off the physical lines of a text without a scan: the header lines are
the longest prefix of lines that are blank, comments or directives, the directives are those of the
header lines, and the header ends behind the last of them.

Main statement: extraction gives exactly that, its span is always in order and fits, the part of
the text in front of the body holds nothing but whole header lines, and what follows the content of
the first other line is of no account (`extract_header_lines`).
-/

namespace Assemblage.Header
set_option autoImplicit false
open Assemblage.Text

/-! ## The reference -/

namespace Reference

/-- The space, the tab and the byte-order mark. -/
def isFiller (c : Char) : Bool := c == ' ' || c == '\t' || c == '\ufeff'

def kind (g : DirectiveGrammar) (content : List Char) : LineKind :=
  if content.all isFiller then .blank
  else if g.skipComments && "//".toList.isPrefixOf (content.dropWhile isFiller) then .comment
  else
    match Directive.recognise g.keywords (content.dropWhile (· == '\ufeff')) with
    | some clause => .directive clause
    | none => .other

/-- The directive on a line as it is written there. -/
def clause? (g : DirectiveGrammar) (line : Line) : Option (List Char) :=
  match kind g line.content with
  | .directive clause => some clause
  | _ => none

/-- The longest prefix of lines of which none is other. -/
def headerLines (g : DirectiveGrammar) (lines : List Line) : List Line :=
  lines.takeWhile fun line => kind g line.content != .other

def directives (g : DirectiveGrammar) (lines : List Line) : List (List Char) :=
  ((headerLines g lines).filterMap (clause? g)).map Directive.normalize

def lastDirective? (g : DirectiveGrammar) (lines : List Line) : Option Line :=
  ((headerLines g lines).filter fun line => (clause? g line).isSome).getLast?

/-- The content of a line without spaces and tabs at its end. -/
def core (line : Line) : List Char := line.content.rdropWhile fun c => c == ' ' || c == '\t'

/-- Where the header ends; nowhere but at the beginning if there is no directive. -/
def stop (g : DirectiveGrammar) (lines : List Line) : Nat :=
  ((lastDirective? g lines).map fun line => line.start + (core line).length).getD 0

/-- Whole header lines in front of a directive, and that directive's line up to its core. -/
def IsCut (g : DirectiveGrammar) (lines : List Line) (header : List Char) : Prop :=
  ∃ before last after, lines = before ++ last :: after ∧
    (∀ line ∈ before, kind g line.content ≠ .other) ∧ (clause? g last).isSome ∧
    header = before.flatMap Line.text ++ core last

end Reference

/-! ## Kinds of lines -/

theorem isFiller_eq : (fun c => isPadding c || isMark c) = Reference.isFiller := by
  funext c
  rfl

theorem trimEnd_eq_rdropWhile (p : Char → Bool) (s : List Char) : trimEnd p s = s.rdropWhile p :=
  rfl

theorem trim_isEmpty (p : Char → Bool) (s : List Char) : (trim p s).isEmpty = s.all p := by
  rw [Bool.eq_iff_iff, List.isEmpty_iff, trim, trimEnd_eq_rdropWhile, List.rdropWhile_eq_nil_iff]
  constructor
  · intro h
    rw [List.all_eq_true]
    have hnil : s.dropWhile p = [] := by
      cases hd : s.dropWhile p with
      | nil => rfl
      | cons c rest =>
        have hc : p c = false := head?_dropWhile_false c (by rw [hd]; rfl)
        have hp : p c = true := h c (by rw [hd]; exact List.mem_cons_self)
        rw [hc] at hp
        exact absurd hp (by decide)
    exact List.dropWhile_eq_nil_iff.mp hnil
  · intro h c hc
    exact List.all_eq_true.mp h c ((List.dropWhile_sublist p).subset hc)

/-- A prefix that ends outside a class is not touched by trimming the end. -/
theorem prefix_rdropWhile {p : Char → Bool} {w s : List Char} {c : Char} (hc : p c = false) :
    w ++ [c] <+: s.rdropWhile p ↔ w ++ [c] <+: s := by
  constructor
  · intro h
    exact h.trans (List.rdropWhile_prefix p s)
  · rintro ⟨rest, rfl⟩
    induction rest using List.reverseRecOn with
    | nil =>
      have hkeep := List.rdropWhile_concat_neg p w c (by simp [hc])
      simp only [List.append_nil, hkeep, List.prefix_rfl]
    | append_singleton rest d ih =>
      rw [← List.append_assoc]
      by_cases hd : p d = true
      · rw [List.rdropWhile_concat_pos _ _ _ hd]
        exact ih
      · rw [List.rdropWhile_concat_neg _ _ _ hd]
        exact ⟨rest ++ [d], by simp⟩

theorem comment_trim (s : List Char) :
    "//".toList.isPrefixOf (trim Reference.isFiller s) =
      "//".toList.isPrefixOf (s.dropWhile Reference.isFiller) := by
  rw [Bool.eq_iff_iff, List.isPrefixOf_iff_prefix, List.isPrefixOf_iff_prefix]
  exact prefix_rdropWhile (w := ['/']) (c := '/') rfl

theorem kind_eq (g : DirectiveGrammar) (content : List Char) :
    kind g content = Reference.kind g content := by
  simp only [kind, isFiller_eq, trim_isEmpty, comment_trim]
  rfl

/-! ## The scan -/

theorem clause?_of_kind {g : DirectiveGrammar} {line : Line} {clause : List Char}
    (h : Reference.kind g line.content = .directive clause) :
    Reference.clause? g line = some clause := by
  simp [Reference.clause?, h]

/-- What the scan finds is read off the header lines. -/
theorem scan_eq (g : DirectiveGrammar) (lines : List Line) :
    scan g lines = (Reference.headerLines g lines).filterMap fun line =>
      (Reference.clause? g line).map fun clause =>
        (Directive.normalize clause, line.start + (Reference.core line).length) := by
  unfold Reference.headerLines
  induction lines with
  | nil => rfl
  | cons line rest ih =>
    rw [scan, kind_eq, List.takeWhile_cons]
    cases hk : Reference.kind g line.content with
    | other => simp
    | directive clause =>
      simp [ih, Reference.clause?, hk]
      rfl
    | blank => simp [ih, Reference.clause?, hk]
    | comment => simp [ih, Reference.clause?, hk]

theorem map_fst_scan (g : DirectiveGrammar) (lines : List Line) :
    (scan g lines).map Prod.fst = Reference.directives g lines := by
  rw [scan_eq, List.map_filterMap, Reference.directives, List.map_filterMap]
  congr 1
  funext line
  cases Reference.clause? g line with
  | none => rfl
  | some clause => rfl

theorem getLast?_scan (g : DirectiveGrammar) (lines : List Line) :
    (scan g lines).getLast?.map Prod.snd =
      (Reference.lastDirective? g lines).map fun line =>
        line.start + (Reference.core line).length := by
  have h : (scan g lines).map Prod.snd =
      ((Reference.headerLines g lines).filter fun line => (Reference.clause? g line).isSome).map
        fun line => line.start + (Reference.core line).length := by
    rw [scan_eq, List.map_filterMap]
    induction Reference.headerLines g lines with
    | nil => rfl
    | cons line rest ih =>
      cases hc : Reference.clause? g line with
      | none => simpa [hc] using ih
      | some clause => simpa [hc] using ih
  rw [← List.getLast?_map, h, List.getLast?_map]
  rfl

theorem directives_eq_scan (g : DirectiveGrammar) (text : List Char) :
    (extract g text).directives = (scan g (physicalLines text)).map Prod.fst := by
  unfold extract
  cases hlast : (scan g (physicalLines text)).getLast? with
  | none => simp [List.getLast?_eq_none_iff.mp hlast]
  | some last => simp [hlast]

theorem span_eq_scan (g : DirectiveGrammar) (text : List Char) :
    (extract g text).span =
      .upTo (((scan g (physicalLines text)).getLast?.map Prod.snd).getD 0) := by
  unfold extract
  cases hlast : (scan g (physicalLines text)).getLast? with
  | none =>
    simp [hlast]
    rfl
  | some last => simp [hlast]

theorem extract_directives (g : DirectiveGrammar) (text : List Char) :
    (extract g text).directives = Reference.directives g (physicalLines text) := by
  rw [directives_eq_scan, map_fst_scan]

theorem extract_span (g : DirectiveGrammar) (text : List Char) :
    (extract g text).span = .upTo (Reference.stop g (physicalLines text)) := by
  rw [span_eq_scan, getLast?_scan, Reference.stop]

/-- An extraction depends on the keywords through the lines that they open. -/
theorem extract_eq_of_recognise {keywords keywords' : List String}
    (h : Directive.recognise keywords' = Directive.recognise keywords) (skip : Bool)
    (text : List Char) : extract ⟨keywords', skip⟩ text = extract ⟨keywords, skip⟩ text := by
  have hdirective : directive? ⟨keywords', skip⟩ = directive? ⟨keywords, skip⟩ := by
    funext content
    rw [directive?, directive?, h]
  have hkind : kind ⟨keywords', skip⟩ = kind ⟨keywords, skip⟩ := by
    funext content
    unfold kind
    rw [hdirective]
  have hscan : scan ⟨keywords', skip⟩ = scan ⟨keywords, skip⟩ := by
    funext lines
    induction lines with
    | nil => rfl
    | cons line rest ih => rw [scan, scan, hkind, ih]
  have hstray : stray? ⟨keywords', skip⟩ = stray? ⟨keywords, skip⟩ := by
    funext lines
    rw [stray?, stray?, hdirective]
  unfold extract
  rw [hscan, hstray]

/-- Characters in front of the lines move the ends of their directives. -/
theorem scan_number_add (g : DirectiveGrammar) (k n : Nat)
    (cuts : List (List Char × List Char)) :
    scan g (number (k + n) cuts) = (scan g (number n cuts)).map fun found =>
      (found.1, k + found.2) := by
  induction cuts generalizing n with
  | nil => rfl
  | cons cut cuts ih =>
    obtain ⟨content, terminator⟩ := cut
    have hrest := ih (n + content.length + terminator.length)
    have hstart : k + (n + content.length + terminator.length) =
        k + n + content.length + terminator.length := by omega
    rw [hstart] at hrest
    simp only [number, scan]
    cases hk : kind g content with
    | other => rfl
    | blank => exact hrest
    | comment => exact hrest
    | directive clause =>
      have hend : contentEnd ⟨k + n, content, terminator⟩ =
          k + contentEnd ⟨n, content, terminator⟩ := Nat.add_assoc _ _ _
      simp only [List.map_cons, hrest, hend]

/-! ## The cut -/

theorem lastDirective?_eq_none {g : DirectiveGrammar} {lines : List Line}
    (h : Reference.lastDirective? g lines = none) : Reference.directives g lines = [] := by
  have hscan := getLast?_scan g lines
  rw [h, Option.map_none, Option.map_eq_none_iff, List.getLast?_eq_none_iff] at hscan
  rw [← map_fst_scan, hscan, List.map_nil]

theorem lastDirective?_mem {g : DirectiveGrammar} {lines : List Line} {last : Line}
    (h : Reference.lastDirective? g lines = some last) :
    last ∈ Reference.headerLines g lines ∧ (Reference.clause? g last).isSome := by
  have hmem := List.mem_of_getLast? h
  exact List.mem_filter.mp hmem

/-- The header lines up to one of them are whole header lines of the text. -/
theorem split_at_mem {g : DirectiveGrammar} {lines : List Line} {last : Line}
    (h : last ∈ Reference.headerLines g lines) :
    ∃ before after, lines = before ++ last :: after ∧
      ∀ line ∈ before, Reference.kind g line.content ≠ .other := by
  obtain ⟨before, after, hsplit⟩ := List.append_of_mem h
  have hlines := List.takeWhile_append_dropWhile
    (p := fun line : Line => Reference.kind g line.content != .other) (l := lines)
  refine ⟨before, after ++ lines.dropWhile fun line => Reference.kind g line.content != .other,
    ?_, ?_⟩
  · rw [← List.cons_append, ← List.append_assoc, ← hsplit]
    exact hlines.symm
  · intro line hline
    have hmem : line ∈ Reference.headerLines g lines := by
      rw [hsplit]
      exact List.mem_append_left _ hline
    simpa using List.mem_takeWhile_imp hmem

theorem take_core {start : Nat} {s : List Char} {before after : List Line} {last : Line}
    (h : Splits start s (before ++ last :: after)) :
    s.take ((before.flatMap Line.text).length + (Reference.core last).length) =
      before.flatMap Line.text ++ Reference.core last := by
  obtain ⟨blanks, hcore⟩ := List.rdropWhile_prefix (fun c => c == ' ' || c == '\t') last.content
  have hs : s = (before.flatMap Line.text ++ Reference.core last) ++
      (blanks ++ last.terminator ++ after.flatMap Line.text) := by
    rw [← h.flatMap_text, List.flatMap_append, List.flatMap_cons, Line.text, ← hcore]
    simp only [Reference.core, List.append_assoc]
  rw [hs, ← List.length_append, List.take_left]

/-- The text in front of the end of the header is a cut behind a directive. -/
theorem isCut_take {g : DirectiveGrammar} {text : List Char} {last : Line}
    (h : Reference.lastDirective? g (physicalLines text) = some last) :
    Reference.IsCut g (physicalLines text)
      (text.take (Reference.stop g (physicalLines text))) := by
  obtain ⟨hmem, hclause⟩ := lastDirective?_mem h
  obtain ⟨before, after, hlines, hbefore⟩ := split_at_mem hmem
  refine ⟨before, last, after, hlines, hbefore, hclause, ?_⟩
  have hsplits := splits_physicalLines text
  rw [hlines] at hsplits
  have hstart := hsplits.start_eq
  rw [Reference.stop, h]
  simp only [Option.map_some, Option.getD_some]
  rw [hstart, Nat.zero_add]
  exact take_core hsplits

theorem stop_le_length (g : DirectiveGrammar) (text : List Char) :
    Reference.stop g (physicalLines text) ≤ text.length := by
  cases h : Reference.lastDirective? g (physicalLines text) with
  | none => simp [Reference.stop, h]
  | some last =>
    obtain ⟨before, after, hlines, -⟩ := split_at_mem (lastDirective?_mem h).1
    have hsplits := splits_physicalLines text
    rw [hlines] at hsplits
    have hlength := congrArg List.length (take_core hsplits)
    rw [List.length_take, List.length_append] at hlength
    have hstart := hsplits.start_eq
    simp only [Reference.stop, h, Option.map_some, Option.getD_some]
    omega

/-! ## The checks of the span -/

theorem span_of_nat (n : Nat) : Span.of 0 n = .ok (.upTo n) := by
  simp [Span.of, Span.upTo]

theorem fits_extract (g : DirectiveGrammar) (text : List Char) :
    (extract g text).span.fits text = .ok () := by
  rw [extract_span, Span.fits]
  exact if_pos (stop_le_length g text)

/-- The checks of the span never fail. -/
theorem attempt_eq (g : DirectiveGrammar) (text : List Char) :
    attempt g text = .ok (extract g text) := by
  have hfits := fits_extract g text
  unfold extract at hfits ⊢
  unfold attempt
  cases hlast : (scan g (physicalLines text)).getLast? with
  | none =>
    simp only [hlast]
    rfl
  | some last =>
    simp only [hlast] at hfits ⊢
    rw [span_of_nat]
    simp only [bind, Except.bind, hfits]
    rfl

theorem header_eq (g : DirectiveGrammar) (text : List Char) :
    (extract g text).span.header text = .ok ((extract g text).header text) := by
  rw [Span.header, fits_extract]
  simp only [bind, Except.bind, Extraction.header, extract_span, Span.upTo, List.drop_zero]
  rfl

theorem body_eq (g : DirectiveGrammar) (text : List Char) :
    (extract g text).span.body text = .ok ((extract g text).body text) := by
  rw [Span.body, fits_extract]
  rfl

/-! ## What follows the header -/

theorem headerLines_append {g : DirectiveGrammar} {before after : List Line} {other : Line}
    (hbefore : ∀ line ∈ before, Reference.kind g line.content ≠ .other)
    (hother : Reference.kind g other.content = .other) :
    Reference.headerLines g (before ++ other :: after) = before := by
  refine takeWhile_append_stop ?_ ?_
  · intro line hline
    simpa using hbefore line hline
  · intro line hline
    obtain rfl : other = line := by simpa using hline
    simp [hother]

theorem extract_congr {g : DirectiveGrammar} {s t : List Char}
    (h : Reference.headerLines g (physicalLines s) = Reference.headerLines g (physicalLines t)) :
    (extract g s).directives = (extract g t).directives ∧
      (extract g s).span = (extract g t).span := by
  constructor
  · rw [extract_directives, extract_directives, Reference.directives, h, Reference.directives]
  · rw [extract_span, extract_span, Reference.stop, Reference.lastDirective?, h, Reference.stop,
      Reference.lastDirective?]

/-- The text behind the content of the first other line can be replaced. -/
theorem extract_replace {g : DirectiveGrammar} {text rest : List Char} {before after : List Line}
    {other : Line} (hlines : physicalLines text = before ++ other :: after)
    (hbefore : ∀ line ∈ before, Reference.kind g line.content ≠ .other)
    (hother : Reference.kind g other.content = .other) (hrest : Follows rest) :
    (extract g (text.take (other.start + other.content.length) ++ rest)).directives =
        (extract g text).directives ∧
      (extract g (text.take (other.start + other.content.length) ++ rest)).span =
        (extract g text).span := by
  have hsplits := splits_physicalLines text
  rw [hlines] at hsplits
  have hne : other.content ≠ [] := by
    intro hnil
    rw [hnil] at hother
    cases hother
  have htake : text.take (other.start + other.content.length) =
      before.flatMap Line.text ++ other.content := by
    have htext : text = (before.flatMap Line.text ++ other.content) ++
        (other.terminator ++ after.flatMap Line.text) := by
      rw [← hsplits.flatMap_text, List.flatMap_append, List.flatMap_cons, Line.text]
      simp only [List.append_assoc]
    rw [hsplits.start_eq, Nat.zero_add, ← List.length_append, htext, List.take_left]
  obtain ⟨line', after', hcontent, hsplits'⟩ := hsplits.replace hne hrest
  have hlines' := hsplits'.eq_number
  refine extract_congr ?_
  rw [htake, hlines, headerLines_append hbefore hother]
  rw [show physicalLines (before.flatMap Line.text ++ other.content ++ rest) =
    before ++ line' :: after' from hlines'.symm]
  exact headerLines_append hbefore (by rw [hcontent]; exact hother)

/-! ## The main statement -/

/-- **Extraction reads the longest prefix of header lines.** With `lines` the physical lines of the
text: the checks of the span pass; directives and span are those of the reference; header and body
are the two parts of the text; without directives the header is empty, and otherwise it is cut
behind a directive; and nothing behind the content of the first other line matters. -/
theorem extract_header_lines (g : DirectiveGrammar) (text : List Char) :
    let lines := physicalLines text
    let e := extract g text
    Splits 0 text lines ∧
      attempt g text = .ok e ∧
      e.directives = Reference.directives g lines ∧
      e.span = .upTo (Reference.stop g lines) ∧
      e.span.header text = .ok (e.header text) ∧
      e.span.body text = .ok (e.body text) ∧
      e.header text ++ e.body text = text ∧
      (e.directives = [] ∧ e.header text = [] ∨
        e.directives ≠ [] ∧ Reference.IsCut g lines (e.header text)) ∧
      ∀ before other after rest, lines = before ++ other :: after →
        (∀ line ∈ before, Reference.kind g line.content ≠ .other) →
        Reference.kind g other.content = .other → Follows rest →
        let e' := extract g (text.take (other.start + other.content.length) ++ rest)
        e'.directives = e.directives ∧ e'.span = e.span := by
  have hspan := extract_span g text
  refine ⟨splits_physicalLines text, attempt_eq g text, extract_directives g text, hspan,
    header_eq g text, body_eq g text, List.take_append_drop _ text, ?_, ?_⟩
  · cases hlast : Reference.lastDirective? g (physicalLines text) with
    | none =>
      left
      refine ⟨by rw [extract_directives, lastDirective?_eq_none hlast], ?_⟩
      simp [Extraction.header, hspan, Span.upTo, Reference.stop, hlast]
    | some last =>
      right
      refine ⟨?_, ?_⟩
      · obtain ⟨hmem, hclause⟩ := lastDirective?_mem hlast
        obtain ⟨clause, hclause⟩ := Option.isSome_iff_exists.mp hclause
        have hmap : Directive.normalize clause ∈ (extract g text).directives := by
          rw [extract_directives]
          exact List.mem_map_of_mem (List.mem_filterMap.mpr ⟨last, hmem, hclause⟩)
        exact List.ne_nil_of_mem hmap
      · have hcut := isCut_take hlast
        simpa [Extraction.header, hspan, Span.upTo] using hcut
  · intro before other after rest hlines hbefore hother hrest
    exact extract_replace hlines hbefore hother hrest

/-- A directive behind the first other line is not hoisted. -/
theorem extract_behind_class :
    let text := "using A; // x\r\nclass B;".toList
    let longer := "using A; // x\r\nclass B;\nusing C;".toList
    (extract .usual text).directives = ["using A;".toList] ∧
      (extract .usual longer).directives = (extract .usual text).directives ∧
      (extract .usual longer).span = (extract .usual text).span := by
  intro text longer
  have hlines : physicalLines text =
      [⟨0, "using A; // x".toList, ['\r', '\n']⟩] ++ ⟨15, "class B;".toList, []⟩ :: [] := by
    decide +kernel
  have hbefore : ∀ line ∈ [(⟨0, "using A; // x".toList, ['\r', '\n']⟩ : Line)],
      Reference.kind .usual line.content ≠ .other := by
    decide +kernel
  have hother : Reference.kind .usual "class B;".toList = .other := by
    decide +kernel
  have hfollows : Follows "\nusing C;".toList := by
    intro c hc
    obtain rfl : '\n' = c := by simpa using hc
    rfl
  obtain ⟨-, -, hdirectives, -, -, -, -, -, htail⟩ := extract_header_lines .usual text
  refine ⟨?_, htail _ _ _ _ hlines hbefore hother hfollows⟩
  rw [hdirectives, hlines]
  decide +kernel

end Assemblage.Header
