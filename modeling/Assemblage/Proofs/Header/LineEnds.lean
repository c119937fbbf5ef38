import Assemblage.Proofs.Header.Extraction

/-!
# Line ends and byte-order marks

A text whose lines end in line feeds is converted to other line ends, and a byte-order mark is put
in front of it. The lines keep their contents, so the scan finds the same directives; the end of the
header moves with the text.

Main statement: `extract_converted`.
-/

namespace Assemblage.Header
set_option autoImplicit false
open Assemblage.Text

/-- The ways to end a line. -/
inductive LineEnd where
  | lineFeed
  | carriageReturn
  | both
  deriving DecidableEq

namespace LineEnd

def chars : LineEnd → List Char
  | lineFeed => ['\n']
  | carriageReturn => ['\r']
  | both => ['\r', '\n']

/-- A text with every line feed replaced. -/
def convert (e : LineEnd) (t : List Char) : List Char :=
  t.flatMap fun c => if c = '\n' then e.chars else [c]

theorem convert_append (e : LineEnd) (s t : List Char) :
    e.convert (s ++ t) = e.convert s ++ e.convert t := List.flatMap_append

theorem convert_cons (e : LineEnd) (c : Char) (t : List Char) :
    e.convert (c :: t) = (if c = '\n' then e.chars else [c]) ++ e.convert t := List.flatMap_cons

theorem head?_convert (e : LineEnd) {t : List Char} (h : t.head? ≠ some '\ufeff') :
    (e.convert t).head? ≠ some '\ufeff' := by
  cases t with
  | nil => exact h
  | cons c t =>
    rw [convert_cons]
    by_cases hc : c = '\n'
    · rw [if_pos hc]
      cases e <;> simp [chars]
    · rw [if_neg hc]
      exact h

theorem convert_plain (e : LineEnd) {t : List Char} (h : ∀ c ∈ t, isBreak c = false) :
    e.convert t = t := by
  induction t with
  | nil => rfl
  | cons c t ih =>
    have hc : c ≠ '\n' := by
      rintro rfl
      exact absurd (h _ List.mem_cons_self) (by decide)
    have hrest := ih fun d hd => h d (List.mem_cons_of_mem c hd)
    rw [convert_cons, if_neg hc, hrest]
    rfl

theorem lineFeed_not_mem_convert (t : List Char) :
    '\n' ∉ carriageReturn.convert t := by
  intro h
  obtain ⟨c, -, hc⟩ := List.mem_flatMap.mp h
  by_cases hn : c = '\n'
  · rw [if_pos hn] at hc
    exact absurd hc (by decide)
  · rw [if_neg hn, List.mem_singleton] at hc
    exact hn hc.symm

/-! ## The lines of a converted text -/

theorem ends_convert (e : LineEnd) {content terminator rest : List Char}
    (hreturn : '\r' ∉ terminator) (h : Ends content terminator rest) :
    Ends content (e.convert terminator) (e.convert rest) := by
  cases h with
  | both | carriageReturn => exact absurd List.mem_cons_self hreturn
  | endOfText hne => exact .endOfText hne
  | lineFeed =>
    have hterminator : e.convert ['\n'] = e.chars := by simp [convert]
    rw [hterminator]
    cases e with
    | lineFeed => exact .lineFeed _
    | both => exact .both _
    | carriageReturn =>
      refine .carriageReturn _ fun hhead => ?_
      exact lineFeed_not_mem_convert rest (List.mem_of_mem_head? hhead)

def cut (e : LineEnd) (line : Line) : List Char × List Char :=
  (line.content, e.convert line.terminator)

theorem splits_convert (e : LineEnd) {start : Nat} {t : List Char} {lines : List Line}
    (h : Splits start t lines) (hreturn : '\r' ∉ t) (start' : Nat) :
    Splits start' (e.convert t) (number start' (lines.map e.cut)) := by
  induction h generalizing start' with
  | nil => exact .nil start'
  | @cons start content terminator rest lines plain ended more ih =>
    simp only [List.mem_append, not_or] at hreturn
    rw [convert_append, convert_append, e.convert_plain plain]
    exact .cons plain (e.ends_convert hreturn.1.2 ended) (ih hreturn.2 _)

theorem physicalLines_convert (e : LineEnd) {t : List Char} (hreturn : '\r' ∉ t) :
    physicalLines (e.convert t) = number 0 ((physicalLines t).map e.cut) :=
  (e.splits_convert (splits_physicalLines t) hreturn 0).eq_number.symm

theorem length_convert_take (e : LineEnd) {content : List Char}
    (h : ∀ c ∈ content, isBreak c = false) (terminator rest : List Char) (n : Nat) :
    (e.convert ((content ++ terminator ++ rest).take
      (content.length + terminator.length + n))).length =
        content.length + (e.convert terminator).length + (e.convert (rest.take n)).length := by
  have htake : (content ++ terminator ++ rest).take (content.length + terminator.length + n) =
      content ++ terminator ++ rest.take n := by
    rw [← List.length_append, List.take_length_add_append]
  rw [htake, convert_append, convert_append, e.convert_plain h, List.length_append,
    List.length_append]

theorem length_convert_core (e : LineEnd) {content : List Char}
    (h : ∀ c ∈ content, isBreak c = false) (behind : List Char) :
    (e.convert ((content ++ behind).take (trimEnd isPadding content).length)).length =
      (trimEnd isPadding content).length := by
  have hfront : trimEnd isPadding content <+: content := by
    rw [trimEnd_eq_rdropWhile]
    exact List.rdropWhile_prefix isPadding content
  have htake : (content ++ behind).take (trimEnd isPadding content).length =
      trimEnd isPadding content :=
    (List.prefix_iff_eq_take.mp (hfront.trans (List.prefix_append _ _))).symm
  rw [htake, e.convert_plain fun c hc => h c (hfront.subset hc)]

/-- The scan finds the same directives, and each ends behind the same text as before. -/
theorem scan_convert (e : LineEnd) (g : DirectiveGrammar) {start : Nat} {t : List Char}
    {lines : List Line} (h : Splits start t lines) (start' : Nat) :
    ∃ found : List (List Char × Nat), scan g lines = found.map (fun f => (f.1, start + f.2)) ∧
      scan g (number start' (lines.map e.cut)) =
        found.map fun f => (f.1, start' + (e.convert (t.take f.2)).length) := by
  induction h generalizing start' with
  | nil => exact ⟨[], rfl, rfl⟩
  | @cons start content terminator rest lines plain ended more ih =>
    obtain ⟨found, hscan, hscan'⟩ := ih (start' + content.length + (e.convert terminator).length)
    have hbehind : ∀ f : List Char × Nat, start' +
        (e.convert ((content ++ terminator ++ rest).take
          (content.length + terminator.length + f.2))).length =
        start' + content.length + (e.convert terminator).length +
          (e.convert (rest.take f.2)).length := fun f => by
      rw [e.length_convert_take plain]
      omega
    have hmoved : ∀ f : List Char × Nat, start + content.length + terminator.length + f.2 =
        start + (content.length + terminator.length + f.2) := fun f => by omega
    -- `found` counts from behind the first line, `moved` from its start
    let moved := found.map fun f => (f.1, content.length + terminator.length + f.2)
    have hmore : scan g lines = moved.map fun f => (f.1, start + f.2) := by
      rw [hscan, List.map_map]
      exact List.map_congr_left fun f _ => Prod.ext rfl (hmoved f)
    have hmore' : scan g (number (start' + content.length + (e.convert terminator).length)
        (lines.map e.cut)) = moved.map fun f =>
          (f.1, start' + (e.convert ((content ++ terminator ++ rest).take f.2)).length) := by
      rw [hscan', List.map_map]
      exact List.map_congr_left fun f _ => Prod.ext rfl (hbehind f).symm
    rw [List.map_cons, cut, number, scan, scan]
    cases hkind : kind g content with
    | other => exact ⟨[], rfl, rfl⟩
    | blank | comment => exact ⟨moved, hmore, hmore'⟩
    | directive clause =>
      refine ⟨(Directive.normalize clause, (trimEnd isPadding content).length) :: moved, ?_, ?_⟩
      · rw [List.map_cons, ← hmore]
        rfl
      · have hcore := e.length_convert_core plain (terminator ++ rest)
        rw [← List.append_assoc] at hcore
        rw [List.map_cons, ← hmore', hcore]
        rfl

theorem scan_converted (e : LineEnd) (g : DirectiveGrammar) {t : List Char}
    (hreturn : '\r' ∉ t) :
    scan g (physicalLines (e.convert t)) =
      (scan g (physicalLines t)).map fun f => (f.1, (e.convert (t.take f.2)).length) := by
  obtain ⟨found, hscan, hscan'⟩ := e.scan_convert g (splits_physicalLines t) 0
  simp only [Nat.zero_add, Prod.eta, List.map_id'] at hscan hscan'
  rw [e.physicalLines_convert hreturn, hscan', hscan]

end LineEnd

/-! ## Byte-order marks -/

theorem trimEnd_cons {p : Char → Bool} {c : Char} (hc : p c = false) (s : List Char) :
    trimEnd p (c :: s) = c :: trimEnd p s := by
  have hstop : [c].dropWhile p = [c] := List.dropWhile_cons_of_neg (by simp [hc])
  rw [trimEnd, List.reverse_cons, List.dropWhile_append, hstop]
  split
  · next hnone => simp [trimEnd, List.isEmpty_iff.mp hnone]
  · simp [trimEnd]

theorem kind_mark (g : DirectiveGrammar) (content : List Char) :
    kind g ('\ufeff' :: content) = kind g content := rfl

/-- A mark moves what the scan finds, and changes nothing else. -/
theorem scan_mark (g : DirectiveGrammar) (t : List Char) :
    scan g (physicalLines ('\ufeff' :: t)) =
      (scan g (physicalLines t)).map fun f => (f.1, 1 + f.2) := by
  by_cases ht : t = []
  · have hline : physicalLines ['\ufeff'] = [⟨0, ['\ufeff'], []⟩] := by decide +kernel
    have hnone : physicalLines [] = [] := by decide +kernel
    rw [ht, hline, hnone]
    rfl
  obtain ⟨content, rest, rfl, hplain, hfollows, hne⟩ := exists_first_line ht
  have hmarked : ∀ c ∈ '\ufeff' :: content, isBreak c = false :=
    List.forall_mem_cons.mpr ⟨by decide, hplain⟩
  have hend : ∀ terminator, contentEnd ⟨0, '\ufeff' :: content, terminator⟩ =
      1 + contentEnd ⟨0, content, terminator⟩ := fun terminator => by
    simp only [contentEnd, trimEnd_cons (show isPadding '\ufeff' = false by decide),
      List.length_cons]
    omega
  have hstart : ('\ufeff' :: content).length + (cutBreak rest).1.length =
      1 + (content.length + (cutBreak rest).1.length) := by
    rw [List.length_cons]
    omega
  rw [← List.cons_append, physicalLines_append hmarked (fun _ => List.cons_ne_nil _ _) hfollows,
    physicalLines_append hplain hne hfollows, hstart, scan, scan, kind_mark, scan_number_add, hend]
  cases kind g content <;> rfl

theorem scan_marks (g : DirectiveGrammar) (n : Nat) (t : List Char) :
    scan g (physicalLines (List.replicate n '\ufeff' ++ t)) =
      (scan g (physicalLines t)).map fun f => (f.1, n + f.2) := by
  induction n with
  | zero => simp
  | succ n ih =>
    rw [List.replicate_succ, List.cons_append, scan_mark, ih, List.map_map]
    refine List.map_congr_left fun f _ => Prod.ext rfl ?_
    simp only [Function.comp_apply]
    omega

/-! ## The main statement -/

/-- **Line ends and byte-order marks do not matter.** If only line feeds end the lines of a text,
they can be replaced and marks put in front: the directives stay, and if there are some, the text
behind the header is the same with its line feeds replaced. -/
theorem extract_converted (g : DirectiveGrammar) {t : List Char} (hreturn : '\r' ∉ t) (e : LineEnd)
    (n : Nat) :
    let t' := List.replicate n '\ufeff' ++ e.convert t
    (extract g t').directives = (extract g t).directives ∧
      ((extract g t).directives ≠ [] →
        (extract g t').body t' = e.convert ((extract g t).body t)) := by
  intro t'
  have hscan : scan g (physicalLines t') = (scan g (physicalLines t)).map fun f =>
      (f.1, n + (e.convert (t.take f.2)).length) := by
    rw [scan_marks, e.scan_converted g hreturn, List.map_map]
    rfl
  refine ⟨?_, fun hsome => ?_⟩
  · rw [directives_eq_scan, directives_eq_scan, hscan, List.map_map]
    rfl
  · rw [directives_eq_scan] at hsome
    rw [Extraction.body, Extraction.body, span_eq_scan, span_eq_scan, hscan]
    cases hlast : (scan g (physicalLines t)).getLast? with
    | none => exact absurd (by rw [List.getLast?_eq_none_iff.mp hlast]; rfl) hsome
    | some last =>
      have hsplit : t' = List.replicate n '\ufeff' ++ e.convert (t.take last.2) ++
          e.convert (t.drop last.2) := by
        rw [List.append_assoc, ← e.convert_append, List.take_append_drop]
      have hlength : n + (e.convert (t.take last.2)).length =
          (List.replicate n '\ufeff' ++ e.convert (t.take last.2)).length := by
        rw [List.length_append, List.length_replicate]
      simp only [List.getLast?_map, hlast, Option.map_some, Option.getD_some, Span.upTo]
      rw [hlength, hsplit, List.drop_left]

/-- A text with comments and blank lines, a mark in front and both breaks at its line ends. -/
theorem extract_converted_both :
    let t := "// a\n\n using A; // b\nclass C;\n".toList
    let t' := List.replicate 1 '\ufeff' ++ LineEnd.both.convert t
    '\r' ∉ t ∧ (extract .usual t).directives = ["using A;".toList] ∧
      (extract .usual t').directives = ["using A;".toList] ∧
      (extract .usual t').body t' = "\r\nclass C;\r\n".toList := by
  intro t t'
  have hreturn : '\r' ∉ t := by decide +kernel
  have hdirectives : (extract .usual t).directives = ["using A;".toList] := by decide +kernel
  have hbody : LineEnd.both.convert ((extract .usual t).body t) =
      "\r\nclass C;\r\n".toList := by
    decide +kernel
  obtain ⟨hsame, hbehind⟩ := extract_converted .usual hreturn .both 1
  refine ⟨hreturn, hdirectives, hsame.trans hdirectives, ?_⟩
  rw [← hbody]
  refine hbehind ?_
  rw [hdirectives]
  exact List.cons_ne_nil _ _

end Assemblage.Header
