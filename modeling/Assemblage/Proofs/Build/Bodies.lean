import Assemblage.Proofs.Build.Merge
import Assemblage.Proofs.Header.Extraction

/-!
# Bodies without directives

The body of a text starts in the middle of a line, behind the last directive: its first line holds
what is left of that line, spaces and tabs at most, and the lines behind it are those of the text.
So the lines that a second extraction passes over are those that the first one passed over behind
its last directive, none of which is one (`scan_behind`).

Main statement: no directive is found in a body, neither in that of a text nor in one that a builder
has filed (`extract_body`).
-/

namespace Assemblage.Header
set_option autoImplicit false
open Assemblage.Text

/-! ## The rest of a line -/

theorem exists_padding (content : List Char) :
    ∃ padding, content = trimEnd isPadding content ++ padding ∧
      ∀ c ∈ padding, isPadding c = true := by
  refine ⟨content.rtakeWhile isPadding, ?_, fun c hc => List.mem_rtakeWhile_imp hc⟩
  rw [trimEnd_eq_rdropWhile, List.rdropWhile_append_rtakeWhile]

theorem kind_padding (g : DirectiveGrammar) {padding : List Char}
    (h : ∀ c ∈ padding, isPadding c = true) : kind g padding = .blank := by
  have hall : padding.all Reference.isFiller = true := by
    rw [List.all_eq_true]
    intro c hc
    rw [← isFiller_eq]
    simp only [h c hc, Bool.true_or]
  rw [kind_eq, Reference.kind, if_pos hall]

/-- Where the lines of a text start is no matter for what they hold. -/
theorem scan_number_eq_nil (g : DirectiveGrammar) (m n : Nat) {cuts : List (List Char × List Char)}
    (h : scan g (number m cuts) = []) : scan g (number n cuts) = [] := by
  have hm := scan_number_add g m 0 cuts
  have hn := scan_number_add g n 0 cuts
  rw [Nat.add_zero, h, eq_comm, List.map_eq_nil_iff] at hm
  rw [hm] at hn
  exact hn

/-- The rest of a line behind its directive, and the lines behind it, hold no directive if those
lines do not. -/
theorem scan_rest (g : DirectiveGrammar) {content terminator rest padding : List Char}
    (h : Ends content terminator rest) (hpadding : ∀ c ∈ padding, isPadding c = true)
    (hplain : ∀ c ∈ padding, isBreak c = false) {start : Nat}
    (hnone : scan g (number start (cutLines isBreak rest)) = []) :
    scan g (physicalLines (padding ++ (terminator ++ rest))) = [] := by
  by_cases hempty : terminator ++ rest = [] ∧ padding = []
  · rw [hempty.1, hempty.2, List.append_nil, physicalLines, cutLines, number, scan]
  · have hne : terminator ++ rest = [] → padding ≠ [] := fun h hp => hempty ⟨h, hp⟩
    rw [physicalLines_append hplain hne h.head?_isBreak, h.cutBreak_eq, scan,
      kind_padding g hpadding]
    exact scan_number_eq_nil g _ _ hnone

/-! ## Behind the last directive -/

/-- **Behind the last directive of a header nothing is found.** -/
theorem scan_behind (g : DirectiveGrammar) {start : Nat} {t : List Char} {lines : List Line}
    (h : Splits start t lines) {last : List Char × Nat}
    (hlast : (scan g lines).getLast? = some last) :
    ∃ n, last.2 = start + n ∧ scan g (physicalLines (t.drop n)) = [] := by
  induction h with
  | nil => cases hlast
  | @cons start content terminator rest lines plain ended more ih =>
    have hdeeper : (scan g lines).getLast? = some last →
        ∃ n, last.2 = start + n ∧
          scan g (physicalLines ((content ++ terminator ++ rest).drop n)) = [] := by
      intro hlast
      obtain ⟨n, hn, hnone⟩ := ih hlast
      refine ⟨(content ++ terminator).length + n, ?_, ?_⟩
      · rw [hn, List.length_append]
        omega
      · rw [List.drop_length_add_append]
        exact hnone
    rw [scan] at hlast
    cases hkind : kind g content with
    | other =>
      simp only [hkind] at hlast
      cases hlast
    | blank | comment =>
      simp only [hkind] at hlast
      exact hdeeper hlast
    | directive clause =>
      simp only [hkind] at hlast
      cases hmore : scan g lines with
      | cons found others =>
        rw [hmore, List.getLast?_cons_cons, ← hmore] at hlast
        exact hdeeper hlast
      | nil =>
        rw [hmore] at hlast
        cases hlast
        obtain ⟨padding, hcontent, hpadding⟩ := exists_padding content
        have hplain : ∀ c ∈ padding, isBreak c = false := by
          intro c hc
          refine plain c ?_
          rw [hcontent]
          exact List.mem_append_right _ hc
        refine ⟨(trimEnd isPadding content).length, rfl, ?_⟩
        have hdrop : (content ++ terminator ++ rest).drop (trimEnd isPadding content).length =
            padding ++ (terminator ++ rest) := by
          have happ : content ++ terminator ++ rest =
              trimEnd isPadding content ++ (padding ++ (terminator ++ rest)) := by
            rw [← List.append_assoc (trimEnd isPadding content), ← hcontent, List.append_assoc]
          rw [happ, List.drop_left]
        rw [hdrop]
        have hnone : scan g (number (start + content.length + terminator.length)
            (cutLines isBreak rest)) = [] := by
          rw [← more.eq_number]
          exact hmore
        exact scan_rest g ended hpadding hplain hnone

theorem scan_body (g : DirectiveGrammar) (text : List Char) :
    scan g (physicalLines ((extract g text).body text)) = [] := by
  rw [Extraction.body, span_eq_scan, Span.upTo]
  cases hlast : (scan g (physicalLines text)).getLast? with
  | none => exact List.getLast?_eq_none_iff.mp hlast
  | some last =>
    obtain ⟨n, hn, hnone⟩ := scan_behind g (splits_physicalLines text) hlast
    rw [Nat.zero_add] at hn
    rw [Option.map_some, Option.getD_some, hn]
    exact hnone

/-- Where the scan finds nothing, the header is empty. -/
theorem extract_of_scan_nil {g : DirectiveGrammar} {text : List Char}
    (h : scan g (physicalLines text) = []) :
    (extract g text).directives = [] ∧ (extract g text).span = .empty := by
  rw [directives_eq_scan, span_eq_scan, h]
  exact ⟨rfl, rfl⟩

/-- **No directive is found in a body.** The body of a text is what is behind its span, and a second
extraction from it gives no directive and an empty header. After any calls on a builder this holds
of every body that is filed, whatever namespace it is filed under. -/
theorem extract_body (g : DirectiveGrammar) :
    (∀ text : List Char, let body := (extract g text).body text
      (extract g text).span.body text = .ok body ∧
        (extract g body).directives = [] ∧ (extract g body).span = .empty) ∧
    ∀ (s : UnitSettings) (calls : List BuilderCall), s.grammar = g →
      ∀ scope ∈ ((Builder.ofSettings s).run calls).1.namespaces.scopes, ∀ text ∈ scope.bodies,
        (extract g text.toList).directives = [] ∧ (extract g text.toList).span = .empty := by
  constructor
  · intro text body
    exact ⟨body_eq g text, extract_of_scan_nil (scan_body g text)⟩
  · rintro s calls rfl scope hscope text htext
    rw [Merged.run_ofSettings] at hscope
    obtain ⟨name, -, rfl⟩ := List.mem_map.mp hscope
    obtain ⟨f, -, rfl⟩ := List.mem_map.mp htext
    rw [Merged.body, String.toList_ofList]
    exact extract_of_scan_nil (scan_body s.grammar f.text.toList)

/-- Behind the directives of two fragments there are blanks, a comment and, behind a class, another
directive. -/
theorem extract_body_of_fragments :
    let calls := [BuilderCall.add ⟨"using A; \t\r\n// c\r\nclass B;\r\nusing C;", some "N", none⟩,
      .add ⟨"\ufeff\nusing D; // d", none, none⟩]
    let scopes := ((Builder.ofSettings AssetKind.scripts.settings).run calls).1.namespaces.scopes
    let scope : Scope := ⟨"N", [" \t\r\n// c\r\nclass B;\r\nusing C;"]⟩
    AssetKind.scripts.settings.grammar = .usual ∧ scope ∈ scopes ∧
      ∀ text ∈ scope.bodies, (extract .usual text.toList).directives = [] ∧
        (extract .usual text.toList).span = .empty := by
  intro calls scopes scope
  have hscope : scope ∈ scopes := by decide +kernel
  exact ⟨rfl, hscope, (extract_body .usual).2 _ calls rfl scope hscope⟩

end Assemblage.Header
