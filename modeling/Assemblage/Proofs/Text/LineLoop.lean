import Assemblage.Proofs.Text.Preferred
import Mathlib.Data.List.Chain

/-!
# Going over the lines of a text

The lines of a text can be found by a pattern: a run without breaks, and behind it both breaks at
once, one break, or the end of the text. A loop matches it again and again, each time where the last
match ended, and a guard ends the loop behind a match that is empty (`Goes`).

No match in front of the end of the text is empty, so the guard is never met: the loop ends at the
end of the text, and the lines are the physical ones (`goes_iff_of_splits`). These part the text
(`Partition`).

Main statement: `physicalLines_partition`.
-/

namespace Assemblage.Text
set_option autoImplicit false
open Matcher

/-! ## The pattern of a line -/

/-- Nothing, where the text ends. -/
def atEnd : Matcher := fun s => if s.isEmpty then [s] else []

/-- What ends a line, both breaks at once preferred. -/
def terminator : Matcher := oneOf [word ['\r', '\n'], word ['\r'], word ['\n'], atEnd]

/-- Every way to match a line at the front of a text, as content and terminator: the longest
content is preferred. -/
def lineMatches (s : List Char) : List (List Char × List Char) :=
  (most (fun c => !isBreak c) s).flatMap fun behind =>
    (terminator behind).map fun rest => (front s behind, front behind rest)

theorem Ends.head?_terminator {content term rest : List Char} (h : Ends content term rest) :
    (terminator (term ++ rest)).head? = some rest := by
  cases h with
  | both => simp [terminator, oneOf, word]
  | lineFeed => simp [terminator, oneOf, word]
  | endOfText => rfl
  | carriageReturn _ h =>
    cases rest with
    | nil => rfl
    | cons c rest =>
      have hc : ¬ '\n' = c := fun e => h (by rw [← e]; rfl)
      simp [terminator, oneOf, word, hc]

theorem head?_lineMatches {content term rest : List Char}
    (hplain : ∀ c ∈ content, isBreak c = false) (hends : Ends content term rest) :
    (lineMatches (content ++ (term ++ rest))).head? = some (content, term) := by
  have hdrop : (content ++ (term ++ rest)).dropWhile (fun c => !isBreak c) = term ++ rest := by
    refine dropWhile_append_stop (fun c hc => ?_) (fun c hc => ?_)
    · rw [hplain c hc]
      rfl
    · rw [hends.head?_isBreak c hc]
      rfl
  have hmost := head?_most (fun c => !isBreak c) (content ++ (term ++ rest))
  rw [hdrop] at hmost
  obtain ⟨others, hothers⟩ := List.head?_eq_some_iff.mp hmost
  obtain ⟨worse, hworse⟩ := List.head?_eq_some_iff.mp hends.head?_terminator
  rw [lineMatches, hothers, List.flatMap_cons, hworse, List.map_cons, front_append, front_append]
  rfl

/-! ## The loop -/

/-- How the loop ends: where the text ends, or behind an empty match. -/
inductive Ending where
  | exhausted
  | empty

/-- Going over the lines of a text from an offset on: the offset and the content of each line, and
how the loop ends. -/
inductive Goes (s : List Char) : Nat → List (Nat × List Char) → Ending → Prop where
  | exhausted {pos : Nat} (h : s.length ≤ pos) : Goes s pos [] .exhausted
  | empty {pos : Nat} {content term : List Char} (h : pos < s.length)
      (first : (lineMatches (s.drop pos)).head? = some (content, term))
      (stop : pos + content.length + term.length = pos) : Goes s pos [(pos, content)] .empty
  | next {pos : Nat} {content term : List Char} {lines : List (Nat × List Char)} {ending : Ending}
      (h : pos < s.length) (first : (lineMatches (s.drop pos)).head? = some (content, term))
      (stop : pos + content.length + term.length ≠ pos)
      (more : Goes s (pos + content.length + term.length) lines ending) :
      Goes s pos ((pos, content) :: lines) ending

/-- A line holds something, or it has a terminator. -/
theorem Ends.length_pos {content term rest : List Char} (h : Ends content term rest) :
    0 < content.length + term.length := by
  cases h with
  | both | carriageReturn | lineFeed => simp
  | endOfText h => simpa [List.length_pos_iff] using h

/-- What is left of a text behind a line. -/
theorem drop_line {s content term rest : List Char} {pos : Nat}
    (h : s.drop pos = content ++ term ++ rest) :
    s.drop (pos + content.length + term.length) = rest := by
  rw [Nat.add_assoc, ← List.length_append, ← List.drop_drop, h, List.drop_left]

/-- The loop gives the lines that split what is left of the text, and ends where it ends. -/
theorem goes_iff_of_splits {s rest : List Char} {pos : Nat} {lines : List Line}
    (h : Splits pos rest lines) (hrest : s.drop pos = rest) {given : List (Nat × List Char)}
    {ending : Ending} :
    Goes s pos given ending ↔
      given = lines.map (fun l => (l.start, l.content)) ∧ ending = .exhausted := by
  induction h generalizing given ending with
  | nil pos =>
    have hend : s.length ≤ pos := List.drop_eq_nil_iff.mp hrest
    constructor
    · intro h
      cases h with
      | exhausted => exact ⟨rfl, rfl⟩
      | empty h | next h => omega
    · rintro ⟨rfl, rfl⟩
      exact .exhausted hend
  | @cons pos content term rest lines plain ended more ih =>
    have hpos : pos < s.length := by
      rw [← List.drop_eq_nil_iff.not.trans Nat.not_le, hrest]
      exact ended.ne_nil
    have hfirst : (lineMatches (s.drop pos)).head? = some (content, term) := by
      rw [hrest, List.append_assoc]
      exact head?_lineMatches plain ended
    have hlength := ended.length_pos
    have hmore := drop_line hrest
    constructor
    · intro h
      cases h with
      | exhausted h => omega
      | empty _ first stop =>
        obtain ⟨rfl, rfl⟩ := Prod.mk.inj (Option.some.inj (hfirst.symm.trans first))
        omega
      | next _ first _ behind =>
        obtain ⟨rfl, rfl⟩ := Prod.mk.inj (Option.some.inj (hfirst.symm.trans first))
        obtain ⟨rfl, rfl⟩ := (ih hmore).mp behind
        exact ⟨rfl, rfl⟩
    · rintro ⟨rfl, rfl⟩
      have hstop : pos + content.length + term.length ≠ pos := by omega
      exact .next hpos hfirst hstop ((ih hmore).mpr ⟨rfl, rfl⟩)

/-! ## The parts of a text -/

/-- The terminators that can stand between two lines. -/
def terminators : List (List Char) := [['\r', '\n'], ['\r'], ['\n']]

theorem Ends.mem_terminators {content term rest : List Char} (h : Ends content term rest)
    (hrest : rest ≠ []) : term ∈ terminators := by
  cases h with
  | both | carriageReturn | lineFeed => simp [terminators]
  | endOfText => exact absurd rfl hrest

/-- Between the content of a line and the next line stands one terminator; a line feed behind a
carriage return belongs to it. -/
structure Apart (s : List Char) (l m : Line) : Prop where
  terminator : l.terminator ∈ terminators
  between : s.drop (l.start + l.content.length) = l.terminator ++ s.drop m.start
  whole : l.terminator = ['\r'] → (s.drop m.start).head? ≠ some '\n'

/-- Lines that part a text. -/
structure Partition (s : List Char) (lines : List Line) : Prop where
  text : lines.flatMap Line.text = s
  first : ∀ l ∈ lines.head?, l.start = 0
  increasing : (lines.map Line.start).Pairwise (· < ·)
  content : ∀ l ∈ lines, (s.drop l.start).take l.content.length = l.content ∧
    '\r' ∉ l.content ∧ '\n' ∉ l.content
  apart : lines.IsChain (Apart s)
  last : ∀ l ∈ lines.getLast?, s.drop (l.start + l.content.length) = l.terminator ∧
    (l.terminator = [] ∨ l.terminator ∈ terminators)

theorem Splits.start_of_head? {pos : Nat} {rest : List Char} {lines : List Line}
    (h : Splits pos rest lines) : ∀ l ∈ lines.head?, l.start = pos ∧ rest ≠ [] := by
  cases h with
  | nil => simp
  | cons _ ended _ =>
    rintro l ⟨⟩
    exact ⟨rfl, ended.ne_nil⟩

theorem Splits.drop_start {s : List Char} {lines : List Line} (h : Splits 0 s lines) :
    ∀ l ∈ lines, ∃ rest, s.drop l.start = l.content ++ (l.terminator ++ rest) := by
  intro l hl
  obtain ⟨before, after, rfl⟩ := List.append_of_mem hl
  refine ⟨after.flatMap Line.text, ?_⟩
  rw [h.start_eq, Nat.zero_add, ← h.flatMap_text, List.flatMap_append, List.drop_left,
    List.flatMap_cons, Line.text, List.append_assoc]

theorem Splits.start_lt {pos : Nat} {rest : List Char} {lines : List Line}
    (h : Splits pos rest lines) : lines.IsChain fun l m => l.start < m.start := by
  induction h with
  | nil => exact .nil
  | @cons pos content term rest lines plain ended more ih =>
    refine List.isChain_cons.mpr ⟨fun m hm => ?_, ih⟩
    have hlength := ended.length_pos
    rw [(more.start_of_head? m hm).1]
    show pos < pos + content.length + term.length
    omega

theorem Splits.apart {s rest : List Char} {pos : Nat} {lines : List Line}
    (h : Splits pos rest lines) (hrest : s.drop pos = rest) : lines.IsChain (Apart s) := by
  induction h with
  | nil => exact .nil
  | @cons pos content term rest lines plain ended more ih =>
    have hmore := drop_line hrest
    refine List.isChain_cons.mpr ⟨fun m hm => ?_, ih hmore⟩
    obtain ⟨hstart, hne⟩ := more.start_of_head? m hm
    refine ⟨ended.mem_terminators hne, ?_, fun hterm => ?_⟩
    · rw [hstart, hmore, ← List.drop_drop, hrest, List.append_assoc, List.drop_left]
    · rw [hstart, hmore]
      cases ended with
      | carriageReturn _ h => exact h
      | both | lineFeed | endOfText => exact absurd hterm (by simp)

theorem Splits.last {s rest : List Char} {pos : Nat} {lines : List Line}
    (h : Splits pos rest lines) (hrest : s.drop pos = rest) :
    ∀ l ∈ lines.getLast?, s.drop (l.start + l.content.length) = l.terminator ∧
      (l.terminator = [] ∨ l.terminator ∈ terminators) := by
  induction h with
  | nil => simp
  | @cons pos content term rest lines plain ended more ih =>
    have hmore := drop_line hrest
    cases more with
    | nil =>
      intro l hl
      rw [List.getLast?_singleton, Option.mem_some_iff] at hl
      subst hl
      refine ⟨?_, ?_⟩
      · rw [← List.drop_drop, hrest, List.append_assoc, List.drop_left, List.append_nil]
      · cases ended with
        | endOfText => exact .inl rfl
        | both | carriageReturn | lineFeed => exact .inr (by simp [terminators])
    | cons => exact ih hmore

theorem Splits.partition {s : List Char} {lines : List Line} (h : Splits 0 s lines) :
    Partition s lines where
  text := h.flatMap_text
  first := fun l hl => (h.start_of_head? l hl).1
  increasing := by
    rw [List.pairwise_map]
    exact List.isChain_iff_pairwise.mp h.start_lt
  content := fun l hl => by
    obtain ⟨rest, hdrop⟩ := h.drop_start l hl
    refine ⟨by rw [hdrop, List.take_left], fun hc => ?_, fun hc => ?_⟩
    · exact absurd (h.content_ne_break l hl _ hc) (by decide)
    · exact absurd (h.content_ne_break l hl _ hc) (by decide)
  apart := h.apart rfl
  last := h.last rfl

/-- **Going over the lines of a text ends, and the lines part it.** The loop gives each physical
line with its offset, and it ends at the end of the text: the guard against an empty match is never
met. -/
theorem physicalLines_partition (s : List Char) :
    (∀ given ending, Goes s 0 given ending ↔
      given = (physicalLines s).map (fun l => (l.start, l.content)) ∧ ending = .exhausted) ∧
    Partition s (physicalLines s) :=
  ⟨fun _ _ => goes_iff_of_splits (splits_physicalLines s) rfl, (splits_physicalLines s).partition⟩

end Assemblage.Text
