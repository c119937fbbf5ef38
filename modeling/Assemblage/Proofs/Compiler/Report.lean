import Assemblage.Proofs.Compiler.Grammar
import Assemblage.Proofs.Text.Contents
import Mathlib.Data.List.DropRight

/-!
# Reading a report back

`Reads` says which diagnostic a line without blanks at its ends is: the message is all that stands
behind the first heading of a clause, and the location, if there is one, ends in the first place
that makes a mark together with what stands behind it. A line is read in this way only
(`diagnostic?_eq_some_iff`).

Main statement: a diagnostic of a report, written on a line of its own, is read back as itself
(`diagnostics_text`). Writing it changes the blanks between the parts, but no mark appears in front
of the place that ended its location.
-/

namespace Assemblage.Report
set_option autoImplicit false
open Assemblage.Text Assemblage.Matcher

/-! ## Texts without blanks at their ends -/

structure Flush (s : List Char) : Prop where
  front : ∀ c ∈ s.head?, isBlank c = false
  back : ∀ c ∈ s.getLast?, isBlank c = false

theorem flush_trim (s : List Char) : Flush (trim isBlank s) := by
  have hprefix : trim isBlank s <+: s.dropWhile isBlank := List.rdropWhile_prefix isBlank _
  constructor
  · intro c hc
    obtain ⟨t, ht⟩ := hprefix
    refine head?_dropWhile_false (s := s) c ?_
    rw [← ht, List.head?_append, Option.mem_def.mp hc]
    rfl
  · intro c hc
    have hne : trim isBlank s ≠ [] := by
      intro hnil
      rw [hnil] at hc
      cases hc
    rw [List.getLast?_eq_some_getLast hne] at hc
    cases hc
    exact Bool.not_eq_true _ ▸ List.rdropWhile_last_not isBlank (s.dropWhile isBlank) hne

theorem trimEnd_flush {s : List Char} (hs : Flush s) : trimEnd isBlank s = s := by
  refine List.rdropWhile_eq_self_iff.mpr fun hne => ?_
  simpa using hs.back _ (List.getLast?_eq_some_getLast hne)

theorem trim_flush {s : List Char} (hs : Flush s) : trim isBlank s = s := by
  have hdrop : s.dropWhile isBlank = s :=
    dropWhile_append_stop (w := []) (fun _ hc => absurd hc List.not_mem_nil) hs.front
  rw [trim, hdrop, trimEnd_flush hs]

theorem trim_append_blank {s : List Char} (hs : Flush s) (hne : s ≠ []) {c : Char}
    (hc : isBlank c = true) : trim isBlank (s ++ [c]) = s := by
  have hdrop : (s ++ [c]).dropWhile isBlank = s ++ [c] := by
    refine dropWhile_append_stop (w := []) (fun _ hc => absurd hc List.not_mem_nil) ?_
    show ∀ a ∈ (s ++ [c]).head?, isBlank a = false
    rw [List.head?_append_of_ne_nil _ hne]
    exact hs.front
  have hend : trimEnd isBlank (s ++ [c]) = trimEnd isBlank s :=
    List.rdropWhile_concat_pos isBlank s c hc
  rw [trim, hdrop, hend, trimEnd_flush hs]

theorem Flush.of_append {s t : List Char} (h : Flush (s ++ t))
    (ht : ∀ c ∈ t.head?, isBlank c = false) : Flush t := by
  refine ⟨ht, fun c hc => h.back c ?_⟩
  rw [List.getLast?_append, Option.mem_def.mp hc]
  rfl

theorem flush_append {s t : List Char} (hs : s ≠ []) (ht : t ≠ [])
    (hfront : ∀ c ∈ s.head?, isBlank c = false) (hback : ∀ c ∈ t.getLast?, isBlank c = false) :
    Flush (s ++ t) := by
  constructor
  · rw [List.head?_append_of_ne_nil _ hs]
    exact hfront
  · rw [List.getLast?_append_of_ne_nil _ ht]
    exact hback

/-! ## Lines -/

/-- Which diagnostic a line without blanks at its ends is. -/
inductive Reads : List Char → Diagnostic → Prop where
  | bare {severity : Severity} {c h message : List Char} (hc : c ∈ Grammar.code)
      (hh : h ∈ Grammar.heading severity c) (hmessage : Flush message)
      (plain : ∀ y, y <:+ message → ¬ Marked y) :
      Reads (h ++ message) ⟨severity, .ofList message, some (.ofList c), none⟩
  | located {severity : Severity} {before p k c h message : List Char} (hbefore : before ≠ [])
      (plain : ∀ y, y <:+ before.tail → ¬ Marked y) (hp : p ∈ Grammar.place)
      (hk : k ∈ Grammar.colon) (hc : c ∈ Grammar.code) (hh : h ∈ Grammar.heading severity c)
      (hmessage : Flush message) :
      Reads (before ++ (p ++ (k ++ (h ++ message))))
        ⟨severity, .ofList message, some (.ofList c), some (.ofList (before ++ p))⟩

theorem reads_of_clause? {s : List Char} (hs : Flush s) {d : Diagnostic}
    (hd : clause? s = some d) (hnone : ∀ y, y <:+ s.drop 1 → ¬ Marked y) : Reads s d := by
  obtain ⟨severity, c, hc, h, hh, message, rfl, hfront, rfl⟩ := clause?_eq_some_iff.mp hd
  have hmessage := hs.of_append hfront
  rw [trimEnd_flush hmessage]
  refine .bare hc hh hmessage fun y hy => hnone y ?_
  obtain ⟨a, t, rfl, -⟩ := heading_head hh
  exact hy.trans (List.suffix_append t message)

theorem reads_of_seek? {s : List Char} (hs : Flush s) {d : Diagnostic}
    (hd : seek? s (s.drop 1) = some d) : Reads s d := by
  cases s with
  | nil => cases hd
  | cons a s =>
    obtain ⟨skipped, rest, hrest, hskip, hlocated⟩ := seek?_eq_some_iff.mp hd
    obtain rfl : s = skipped ++ rest := hrest
    obtain ⟨p, hp, k, hk, rest, d, rfl, hclause, rfl⟩ :=
      (located?_eq_some_iff (a :: skipped)).mp hlocated
    obtain ⟨severity, c, hc, h, hh, message, rfl, hfront, rfl⟩ := clause?_eq_some_iff.mp hclause
    have hmessage : Flush message := by
      refine Flush.of_append (s := a :: skipped ++ (p ++ (k ++ h))) ?_ hfront
      simpa using hs
    rw [trimEnd_flush hmessage]
    refine .located (List.cons_ne_nil a skipped) (fun y hy hmarked => ?_) hp hk hc hh hmessage
    by_cases hne : y = []
    · exact not_marked_nil (hne ▸ hmarked)
    · exact hskip y hy hne (hmarked.append _)

theorem seek?_of_bare {h message : List Char} (hh : h ∈ runOf isOther)
    (plain : ∀ y, y <:+ message → ¬ Marked y) :
    seek? (h ++ message) ((h ++ message).drop 1) = none := by
  refine seek?_eq_none_iff.mpr fun y hy hmarked => ?_
  have hsuffix := hy.trans (List.drop_suffix 1 _)
  rcases List.suffix_or_suffix_of_suffix hsuffix (List.suffix_append h message) with
    hmessage | ⟨z, rfl⟩
  · exact plain y hmessage hmarked
  · obtain ⟨t, ht⟩ := hsuffix
    have hheading : t ++ z = h := List.append_cancel_right (by simpa using ht)
    cases z with
    | nil => exact plain message List.suffix_rfl hmarked
    | cons a z =>
      have ha : a = '(' := by simpa using hmarked.head?
      have hother := hh a (hheading ▸ List.mem_append_right t List.mem_cons_self)
      rw [ha] at hother
      exact absurd hother (by decide)

theorem seek?_of_located {before p k h message : List Char} {severity : Severity} {c : List Char}
    (hbefore : before ≠ []) (plain : ∀ y, y <:+ before.tail → ¬ Marked y)
    (hp : p ∈ Grammar.place) (hk : k ∈ Grammar.colon) (hc : c ∈ Grammar.code)
    (hh : h ∈ Grammar.heading severity c) (hmessage : Flush message) :
    let s := before ++ (p ++ (k ++ (h ++ message)))
    seek? s (s.drop 1) =
      some ⟨severity, .ofList message, some (.ofList c), some (.ofList (before ++ p))⟩ := by
  intro s
  obtain ⟨a, before, rfl⟩ := List.exists_cons_of_ne_nil hbefore
  have hclause : clause? (h ++ message) =
      some ⟨severity, .ofList message, some (.ofList c), none⟩ := by
    refine clause?_eq_some_iff.mpr ⟨severity, c, hc, h, hh, message, rfl, hmessage.front, ?_⟩
    rw [trimEnd_flush hmessage]
  refine seek?_eq_some_iff.mpr ⟨before, p ++ (k ++ (h ++ message)), rfl, ?_, ?_⟩
  · intro y hy hne hmarked
    obtain ⟨v, -, hplace⟩ := mem_place hp
    rw [hplace] at hmarked
    exact plain y hy (hmarked.of_append hne)
  · exact (located?_eq_some_iff (a :: before)).mpr
      ⟨p, hp, k, hk, h ++ message, _, rfl, hclause, rfl⟩

/-- **A line** is read in one way only. -/
theorem diagnostic?_eq_some_iff {line : List Char} {d : Diagnostic} :
    diagnostic? line = some d ↔ Reads (trim isBlank line) d := by
  have hs := flush_trim line
  unfold diagnostic?
  generalize trim isBlank line = s at hs ⊢
  constructor
  · intro hd
    dsimp only at hd
    cases hseek : seek? s (s.drop 1) with
    | some first =>
      rw [hseek] at hd
      cases hd
      exact reads_of_seek? hs hseek
    | none =>
      rw [hseek] at hd
      exact reads_of_clause? hs hd (seek?_eq_none_iff.mp hseek)
  · intro hd
    dsimp only
    cases hd with
    | @bare severity c h message hc hh hmessage plain =>
      rw [seek?_of_bare (heading_le hc hh) plain]
      refine clause?_eq_some_iff.mpr ⟨severity, c, hc, h, hh, message, rfl, hmessage.front, ?_⟩
      rw [trimEnd_flush hmessage]
    | located hbefore plain hp hk hc hh hmessage =>
      rw [seek?_of_located hbefore plain hp hk hc hh hmessage]

/-! ## Writing a diagnostic -/

/-- A clause as it is written. -/
def clauseText (severity : Severity) (c message : List Char) : List Char :=
  severity.name.toList ++ ' ' :: (c ++ ':' :: ' ' :: message)

theorem ofList_ne_empty {s : List Char} (hs : s ≠ []) : (String.ofList s != "") = true := by
  rw [bne_iff_ne]
  intro h
  rw [← String.toList_ofList (l := s), h] at hs
  exact hs rfl

theorem text_bare {severity : Severity} {c message : List Char} (hc : c ≠ []) :
    (Diagnostic.text ⟨severity, .ofList message, some (.ofList c), none⟩).toList =
      clauseText severity c message := by
  simp [Diagnostic.text, clauseText, Option.filter, ofList_ne_empty hc]

theorem text_located {severity : Severity} {c message location : List Char} (hc : c ≠ [])
    (hlocation : location ≠ []) :
    (Diagnostic.text ⟨severity, .ofList message, some (.ofList c),
      some (.ofList location)⟩).toList =
      location ++ ':' :: ' ' :: clauseText severity c message := by
  simp [Diagnostic.text, clauseText, Option.filter, ofList_ne_empty hc, ofList_ne_empty hlocation]

theorem code_ne_nil {c : List Char} (hc : c ∈ Grammar.code) : c ≠ [] := by
  obtain ⟨a, t, rfl, -⟩ := code_head hc
  exact List.cons_ne_nil a t

theorem colon_of_blanks {v : List Char} (hv : v ∈ runOf isBlank) : ':' :: v ∈ Grammar.colon :=
  ⟨[':'], ⟨[], nil_mem_runOf _, [':'], mem_charIn.mpr rfl, rfl⟩, v, hv, rfl⟩

/-- Behind a text that starts without a blank, a clause as it is written is a clause again. -/
theorem trim_clauseText (before : List Char) {c message : List Char} {severity : Severity}
    (hbefore : ∀ a ∈ before.head?, isBlank a = false) (hmessage : Flush message) :
    ∃ h ∈ Grammar.heading severity c,
      trim isBlank (before ++ clauseText severity c message) = before ++ (h ++ message) := by
  have hheading {v : List Char} (hv : v ∈ runOf isBlank) :
      severity.name.toList ++ ([' '] ++ (c ++ ':' :: v)) ∈ Grammar.heading severity c :=
    ⟨[' '], ⟨[' '], ⟨' ', by decide, rfl⟩, [], nil_mem_runOf _, rfl⟩, _, colon_of_blanks hv, rfl⟩
  have hfront {h : List Char} (hh : h ∈ Grammar.heading severity c) :
      before ++ h ≠ [] ∧ ∀ a ∈ (before ++ h).head?, isBlank a = false := by
    obtain ⟨a, t, rfl, ha⟩ := heading_head hh
    cases before with
    | nil => exact ⟨List.cons_ne_nil a t, by rintro b ⟨⟩; exact ha⟩
    | cons b before => exact ⟨List.cons_ne_nil b _, hbefore⟩
  by_cases hne : message = []
  · subst hne
    have hh := hheading (nil_mem_runOf isBlank)
    obtain ⟨hnil, hhead⟩ := hfront hh
    refine ⟨_, hh, ?_⟩
    have hlast : (before ++ (severity.name.toList ++ ([' '] ++ (c ++ [':'])))).getLast? =
        some ':' := by
      simp [List.getLast?_append, List.getLast?_cons]
    have hflush : Flush (before ++ (severity.name.toList ++ ([' '] ++ (c ++ [':'])))) := by
      refine ⟨hhead, fun a ha => ?_⟩
      rw [hlast] at ha
      cases ha
      decide
    rw [List.append_nil, ← trim_append_blank hflush hnil (c := ' ') (by decide)]
    simp [clauseText]
  · have hh := hheading (v := [' ']) (by simp [mem_runOf, isBlank])
    obtain ⟨hnil, hhead⟩ := hfront hh
    refine ⟨_, hh, ?_⟩
    rw [← List.append_assoc, ← trim_flush (flush_append hnil hne hhead hmessage.back)]
    simp [clauseText]

theorem Reads.diagnostic?_text {s : List Char} {d : Diagnostic} (h : Reads s d) (hs : Flush s) :
    diagnostic? d.text.toList = some d := by
  refine diagnostic?_eq_some_iff.mpr ?_
  cases h with
  | @bare severity c _ message hc _ hmessage plain =>
    obtain ⟨h, hh, htrim⟩ := trim_clauseText [] (by simp) hmessage
    rw [text_bare (code_ne_nil hc), ← List.nil_append (clauseText _ _ _), htrim]
    exact .bare hc hh hmessage plain
  | @located severity before p k c _ message hbefore plain hp _ hc _ hmessage =>
    obtain ⟨a, before, rfl⟩ := List.exists_cons_of_ne_nil hbefore
    have hfront : ∀ b ∈ (a :: before ++ (p ++ [':', ' '])).head?, isBlank b = false := hs.front
    obtain ⟨h, hh, htrim⟩ := trim_clauseText _ hfront hmessage
    have htext : (a :: before ++ p) ++ ':' :: ' ' :: clauseText severity c message =
        (a :: before ++ (p ++ [':', ' '])) ++ clauseText severity c message := by simp
    rw [text_located (code_ne_nil hc) (by simp), htext, htrim, List.append_assoc, List.append_assoc]
    exact .located hbefore plain hp (colon_of_blanks (by simp [mem_runOf, isBlank])) hc hh hmessage

/-! ## Lines of reports -/

/-- A diagnostic is written on one line if it was read from one. -/
theorem Reads.unbroken_text {s : List Char} {d : Diagnostic} (h : Reads s d)
    (hs : ∀ a ∈ s, isAnyBreak a = false) : ∀ a ∈ d.text.toList, isAnyBreak a = false := by
  have hclause {severity : Severity} {c h message : List Char}
      (hh : h ∈ Grammar.heading severity c) (hplain : ∀ a ∈ h, isAnyBreak a = false)
      (hmessage : ∀ a ∈ message, isAnyBreak a = false) :
      ∀ a ∈ clauseText severity c message, isAnyBreak a = false := by
    obtain ⟨g, -, k, -, rfl⟩ := hh
    simp only [List.forall_mem_append] at hplain
    simp only [clauseText, List.forall_mem_append, List.forall_mem_cons]
    exact ⟨hplain.1, by decide, hplain.2.2.1, by decide, by decide, hmessage⟩
  cases h with
  | bare hc hh =>
    rw [List.forall_mem_append] at hs
    rw [text_bare (code_ne_nil hc)]
    exact hclause hh hs.1 hs.2
  | located hbefore _ _ _ hc hh =>
    simp only [List.forall_mem_append] at hs
    obtain ⟨hfront, hplace, -, hheading, hmessage⟩ := hs
    rw [text_located (code_ne_nil hc) (by simp [hbefore])]
    simp only [List.forall_mem_append, List.forall_mem_cons]
    exact ⟨⟨hfront, hplace⟩, by decide, by decide, hclause hh hheading hmessage⟩

/-- **A diagnostic of a report** is read back from its own text, whatever that holds. -/
theorem diagnostics_text {report : List Char} {d : Diagnostic} (h : d ∈ diagnostics report) :
    diagnostics d.text.toList = [d] := by
  obtain ⟨line, hline, hd⟩ := List.mem_filterMap.mp h
  obtain ⟨cut, hcut, rfl⟩ := List.mem_map.mp hline
  have hreads := diagnostic?_eq_some_iff.mp hd
  have htrim : ∀ a ∈ trim isBlank cut.1, isAnyBreak a = false := fun a ha =>
    not_break_of_mem_cutLines cut hcut a
      ((List.dropWhile_sublist _).subset ((List.rdropWhile_prefix _ _).subset ha))
  have hread := hreads.diagnostic?_text (flush_trim cut.1)
  have hne : d.text.toList ≠ [] := by
    intro hnil
    rw [hnil] at hread
    cases hread
  rw [diagnostics, contentLines, cutLines_unbroken hne (hreads.unbroken_text htrim)]
  simp [hread]

/-- A location with a place inside, a code with a digit of another script, and a message that looks
like a diagnostic. -/
theorem diagnostics_text_nested :
    let report := "Build:\n a(1,2): b(3,4)\t: warning  CS١:  ;c(5,6):error X1: d \u2028".toList
    let d : Diagnostic := ⟨.warning, ";c(5,6):error X1: d", some "CS١", some "a(1,2): b(3,4)"⟩
    d ∈ diagnostics report ∧ diagnostics d.text.toList = [d] := by
  intro report d
  have hmem : d ∈ diagnostics report := by
    rw [show report = _ from String.toList_ofList]
    decide +kernel
  exact ⟨hmem, diagnostics_text hmem⟩

end Assemblage.Report
