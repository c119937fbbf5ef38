import Assemblage.Proofs.Build.Merge
import Assemblage.Proofs.Header.Hoisted

/-!
# The header of a source

The directives that a builder writes at the top of its source are read back by its own extraction:
each is hoisted as a line of its own, and the namespace line behind them holds no semicolon, so that
it ends the header.

Main statement: after any calls, the extraction of the source gives exactly the imports of the
builder (`extract_source`).
-/

namespace Assemblage
set_option autoImplicit false
open Assemblage.Text Assemblage.Directive Assemblage.Header

/-! ## The lines of a source -/

theorem intercalate_concat {α : Type} (sep d : List α) (ds : List (List α)) :
    sep.intercalate (ds ++ [d]) = ds.flatMap (· ++ sep) ++ d := by
  induction ds with
  | nil => simp
  | cons e ds ih =>
    rw [List.cons_append, List.intercalate_cons_of_ne_nil (by simp), ih]
    simp [List.append_assoc]

theorem takeWhile_append_cons {α : Type} {p : α → Bool} {a : α} (ha : p a = false)
    (s rest : List α) : (s ++ a :: rest).takeWhile p = s.takeWhile p := by
  induction s with
  | nil => simp [ha]
  | cons b s ih =>
    by_cases hb : p b = true
    · simp [hb, ih]
    · simp [hb]

theorem Splits.first {start : Nat} {s : List Char} {lines : List Line} (h : Splits start s lines)
    (hs : s ≠ []) : ∃ terminator more,
      lines = ⟨start, s.takeWhile fun c => !isBreak c, terminator⟩ :: more := by
  cases h with
  | nil => exact absurd rfl hs
  | @cons _ content terminator rest lines plain ended more =>
    have hcontent :
        (content ++ (terminator ++ rest)).takeWhile (fun c => !isBreak c) = content := by
      refine takeWhile_append_stop ?_ ?_
      · intro c hc
        simpa using plain c hc
      · intro c hc
        simpa using ended.head?_isBreak c hc
    rw [List.append_assoc, hcontent]
    exact ⟨terminator, lines, rfl⟩

/-- The lines of a source: a line for each directive, an empty one, and one that ends the header. -/
theorem physicalLines_hoisted {g : DirectiveGrammar} (rest : List Char)
    (hk : ∀ k ∈ g.keywords, IsName k) {ds : List (List Char)} (hd : ∀ d ∈ ds, Hoisted g d)
    {c : Char} {scaffold : List Char} (hc : isNameStart c = true)
    (hscaffold : ';' ∉ c :: scaffold) :
    ∃ lines blank other after,
      physicalLines (ds.flatMap (· ++ ['\n']) ++ '\n' :: (c :: scaffold ++ '\n' :: rest)) =
        lines ++ blank :: other :: after ∧
      lines.map Line.content = ds ∧ (∀ line ∈ lines, line.terminator = ['\n']) ∧
      blank.content = [] ∧ other.content = (c :: scaffold).takeWhile (fun c => !isBreak c) ∧
      Reference.kind g other.content = .other := by
  have htail := splits_number (0 + (ds.flatMap (· ++ ['\n'])).length + 0 + 1)
    (c :: scaffold ++ '\n' :: rest)
  obtain ⟨terminator, after, hfirst⟩ := Splits.first htail (by simp)
  have hcontent : (c :: scaffold ++ '\n' :: rest).takeWhile (fun c => !isBreak c) =
      (c :: scaffold).takeWhile fun c => !isBreak c :=
    takeWhile_append_cons (by decide) _ _
  rw [hfirst, hcontent] at htail
  have hblank : Splits (0 + (ds.flatMap (· ++ ['\n'])).length)
      ([] ++ ['\n'] ++ (c :: scaffold ++ '\n' :: rest))
      (⟨0 + (ds.flatMap (· ++ ['\n'])).length, [], ['\n']⟩ :: _) :=
    Splits.cons (fun c hc => absurd hc List.not_mem_nil) (.lineFeed _) htail
  obtain ⟨lines, hcontents, hterminators, hsplits⟩ :=
    splits_of_lines (fun d hm => (hd d hm).plain) 0 hblank
  refine ⟨lines, _, _, after, hsplits.eq_number.symm, hcontents, hterminators, rfl, rfl, ?_⟩
  have htake : (c :: scaffold).takeWhile (fun c => !isBreak c) =
      c :: scaffold.takeWhile fun c => !isBreak c := by
    simp [isBreak_of_isNameStart hc]
  rw [htake]
  refine kind_scaffold hk hc ?_
  rw [← htake]
  intro hmem
  exact hscaffold ((List.takeWhile_sublist _).subset hmem)

section
variable {g : DirectiveGrammar}

/-- The lines of hoisted directives with the empty line behind them are the header lines. -/
theorem headerLines_hoisted {lines after : List Line} {blank other : Line}
    (hlines : ∀ line ∈ lines, Hoisted g line.content) (hblank : blank.content = [])
    (hother : Reference.kind g other.content = .other) :
    Reference.headerLines g (lines ++ blank :: other :: after) = lines ++ [blank] := by
  rw [← List.singleton_append, ← List.append_assoc]
  refine headerLines_append ?_ hother
  intro line hline
  rcases List.mem_append.mp hline with hline | hline
  · rw [(hlines line hline).kind]
    exact LineKind.noConfusion
  · rw [List.mem_singleton.mp hline, hblank]
    exact LineKind.noConfusion

theorem clause?_blank {blank : Line} (hblank : blank.content = []) :
    Reference.clause? g blank = none := by
  unfold Reference.clause?
  rw [hblank]
  rfl

theorem directives_hoisted {lines after : List Line} {blank other : Line}
    (hlines : ∀ line ∈ lines, Hoisted g line.content) (hblank : blank.content = [])
    (hother : Reference.kind g other.content = .other) :
    Reference.directives g (lines ++ blank :: other :: after) = lines.map Line.content := by
  have hfound : lines.filterMap (fun line => (Reference.clause? g line).map Directive.normalize) =
      lines.map Line.content := by
    rw [← List.filterMap_eq_map]
    refine List.filterMap_congr ?_
    intro line hline
    have hhoisted := hlines line hline
    rw [clause?_of_kind hhoisted.kind, Option.map_some, hhoisted.normal]
    rfl
  rw [Reference.directives, headerLines_hoisted hlines hblank hother, List.filterMap_append,
    List.filterMap_cons_none (clause?_blank hblank), List.filterMap_nil, List.append_nil,
    List.map_filterMap, hfound]

theorem lastDirective?_hoisted {lines after : List Line} {blank other : Line}
    (hlines : ∀ line ∈ lines, Hoisted g line.content) (hblank : blank.content = [])
    (hother : Reference.kind g other.content = .other) :
    Reference.lastDirective? g (lines ++ blank :: other :: after) = lines.getLast? := by
  have hall : lines.filter (fun line => (Reference.clause? g line).isSome) = lines := by
    rw [List.filter_eq_self]
    intro line hline
    rw [clause?_of_kind (hlines line hline).kind]
    rfl
  rw [Reference.lastDirective?, headerLines_hoisted hlines hblank hother, List.filter_append, hall]
  simp [clause?_blank hblank]

end

/-- Lines that end in line feeds, up to the content of the last one, are their contents joined. -/
theorem intercalate_contents {before : List Line} {last : Line}
    (h : ∀ line ∈ before ++ [last], line.terminator = ['\n']) :
    ['\n'].intercalate ((before ++ [last]).map Line.content) =
      before.flatMap Line.text ++ last.content := by
  have htexts : before.flatMap Line.text = (before.map Line.content).flatMap (· ++ ['\n']) := by
    rw [List.flatMap_map]
    refine List.flatMap_congr ?_
    intro line hline
    rw [Line.text, h line (List.mem_append_left _ hline)]
  rw [List.map_append, List.map_singleton, intercalate_concat, htexts]

/-- The header of a text that starts with directives on lines of their own. -/
theorem extract_hoisted {g : DirectiveGrammar} {text : List Char} {lines after : List Line}
    {blank other : Line} (htext : physicalLines text = lines ++ blank :: other :: after)
    (hlines : ∀ line ∈ lines, Hoisted g line.content)
    (hterminators : ∀ line ∈ lines, line.terminator = ['\n']) (hblank : blank.content = [])
    (hother : Reference.kind g other.content = .other) :
    let header := ['\n'].intercalate (lines.map Line.content)
    (extract g text).directives = lines.map Line.content ∧
      (extract g text).span = .upTo header.length ∧ text.take header.length = header := by
  have hsplits := splits_physicalLines text
  rw [htext] at hsplits
  rw [extract_directives, extract_span, htext, directives_hoisted hlines hblank hother,
    Reference.stop, lastDirective?_hoisted hlines hblank hother]
  refine ⟨rfl, ?_⟩
  cases hlast : lines.getLast? with
  | none =>
    rw [List.getLast?_eq_none_iff.mp hlast]
    exact ⟨rfl, rfl⟩
  | some last =>
    obtain ⟨before, rfl⟩ := List.getLast?_eq_some_iff.mp hlast
    have hcore : Reference.core last = last.content := (hlines last (by simp)).core
    rw [List.append_assoc] at hsplits
    have hstart := hsplits.start_eq
    have htake := take_core hsplits
    rw [hcore, ← List.length_append] at htake
    rw [intercalate_contents hterminators, Option.map_some, Option.getD_some, hstart, hcore,
      Nat.zero_add, ← List.length_append]
    exact ⟨rfl, htake⟩

/-! ## The directives of a builder -/

/-- Every import of a builder can stand on a line of its own. -/
theorem hoisted_directives {s : UnitSettings} (hk : ∀ k ∈ s.grammar.keywords, IsName k)
    (himports : ∀ d ∈ s.imports, Directive.normalize d.toList ≠ [] →
      (extract s.grammar (Directive.normalize d.toList)).directives =
        [Directive.normalize d.toList])
    (fs : List Fragment) : ∀ d ∈ Merged.directives s fs, Hoisted s.grammar d := by
  intro d hd
  obtain ⟨hmem, hne⟩ := List.mem_filter.mp (List.mem_eraseDups.mp hd)
  obtain ⟨raw, hraw, rfl⟩ := List.mem_map.mp hmem
  rcases List.mem_append.mp hraw with hraw | hraw
  · obtain ⟨text, htext, rfl⟩ := List.mem_map.mp hraw
    have hfound := himports text htext (by simpa using hne)
    have hself : Directive.normalize text.toList ∈
        (extract s.grammar (Directive.normalize text.toList)).directives := by
      rw [hfound]
      exact List.mem_singleton_self _
    exact hoisted_of_extract hk hself
  · obtain ⟨f, -, hf⟩ := List.mem_flatMap.mp hraw
    have hhoisted := hoisted_of_extract hk hf
    rw [hhoisted.normal]
    exact hhoisted

/-- The directives of a source stand in front of the root block. -/
theorem source_chars (b : Builder) :
    ∃ rest, b.source.toList = b.imports.directives.flatMap (· ++ ['\n']) ++
      '\n' :: ("namespace ".toList ++ b.settings.root.toList ++ '\n' :: rest) := by
  have hheader : ∀ ds : List (List Char),
      (String.join ((ds.map String.ofList).map (· ++ "\n"))).toList =
        ds.flatMap (· ++ ['\n']) := by
    intro ds
    rw [String.toList_join, List.flatMap_map, List.flatMap_map]
    congr 1
    funext d
    simp
  refine ⟨("\x7b\n" ++ SourceUnit.terminated b.settings.marker ++
    String.join (b.namespaces.scopes.map (SourceUnit.writeScope b.settings.root)) ++
    String.join (b.epilogue.map SourceUnit.terminated) ++ SourceUnit.closeBlock).toList, ?_⟩
  simp only [Builder.source, SourceUnit.write, Builder.unit, SourceUnit.writeHeader,
    SourceUnit.openBlock, String.toList_append, hheader, List.append_assoc]
  rfl

/-- **Extraction reads the imports of a builder back from its source.** The header of the source
is the imports, one a line, and the line that ends it is that of the root namespace. -/
theorem extract_source (s : UnitSettings) (hk : ∀ k ∈ s.grammar.keywords, IsName k)
    (hroot : ';' ∉ s.root.toList)
    (himports : ∀ d ∈ s.imports, Directive.normalize d.toList ≠ [] →
      (extract s.grammar (Directive.normalize d.toList)).directives =
        [Directive.normalize d.toList])
    (calls : List BuilderCall) :
    let b := ((Builder.ofSettings s).run calls).1
    let e := b.extract b.source
    e.directives = b.imports.directives ∧
      e.span = .upTo (['\n'].intercalate b.imports.directives).length ∧
      e.header b.source.toList = ['\n'].intercalate b.imports.directives ∧
      ∃ lines blank other after,
        physicalLines b.source.toList = lines ++ blank :: other :: after ∧
        lines.map Line.content = b.imports.directives ∧ blank.content = [] ∧
        other.content =
          ("namespace ".toList ++ s.root.toList).takeWhile (fun c => !isBreak c) ∧
        Reference.kind s.grammar other.content = .other := by
  intro b e
  have hb := Merged.run_ofSettings s calls
  have hsettings : b.settings = s := congrArg Builder.settings hb
  have hhoisted : ∀ d ∈ b.imports.directives, Hoisted s.grammar d := by
    rw [show b.imports = _ from congrArg Builder.imports hb]
    exact hoisted_directives hk himports _
  have hscaffold : ';' ∉ 'n' :: ("amespace ".toList ++ s.root.toList) := by
    simpa using hroot
  obtain ⟨rest, hsource⟩ := source_chars b
  rw [hsettings] at hsource
  obtain ⟨lines, blank, other, after, hlines, hcontents, hterminators, hblank, hcontent, hother⟩ :=
    physicalLines_hoisted rest hk hhoisted (by decide) hscaffold
  have hlines' : physicalLines b.source.toList = lines ++ blank :: other :: after := by
    rw [hsource]
    exact hlines
  have hhoisted' : ∀ line ∈ lines, Hoisted s.grammar line.content := by
    intro line hline
    exact hhoisted _ (hcontents ▸ List.mem_map_of_mem hline)
  obtain ⟨hdirectives, hspan, htake⟩ :=
    extract_hoisted hlines' hhoisted' hterminators hblank hother
  rw [hcontents] at hdirectives hspan htake
  have he : e = extract s.grammar b.source.toList := by
    rw [← hsettings]
    rfl
  rw [he]
  refine ⟨hdirectives, hspan, ?_, lines, blank, other, after, hlines', hcontents, hblank, hcontent,
    hother⟩
  rw [Extraction.header, hspan]
  exact htake

/-- The directives of a fragment are read back behind the usual ones. -/
theorem extract_source_of_script :
    let s := AssetKind.scripts.settings
    let calls := [BuilderCall.add ⟨"using static A.B ; // b\r\nclass C;", some "N", none⟩]
    let b := ((Builder.ofSettings s).run calls).1
    (∀ k ∈ s.grammar.keywords, IsName k) ∧ ';' ∉ s.root.toList ∧
      (∀ d ∈ s.imports, Directive.normalize d.toList ≠ [] →
        (extract s.grammar (Directive.normalize d.toList)).directives =
          [Directive.normalize d.toList]) ∧
      (b.extract b.source).directives = b.imports.directives ∧
      b.imports.directives.getLast? = some "using static A.B ;".toList := by
  intro s calls b
  have hk : ∀ k ∈ s.grammar.keywords, IsName k := by
    intro k hk
    obtain rfl : k = "using" := by simpa [s, AssetKind.settings, DirectiveGrammar.usual] using hk
    exact ⟨'u', "sing".toList, rfl, rfl, List.all_eq_true.mp rfl⟩
  have hroot : ';' ∉ s.root.toList := by decide +kernel
  have himports : ∀ d ∈ s.imports, Directive.normalize d.toList ≠ [] →
      (extract s.grammar (Directive.normalize d.toList)).directives =
        [Directive.normalize d.toList] := by
    decide +kernel
  exact ⟨hk, hroot, himports, (extract_source s hk hroot himports calls).1, by decide +kernel⟩

end Assemblage
