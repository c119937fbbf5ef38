import Assemblage.Text.Lines
import Mathlib.Data.List.TakeWhile

/-!
# Physical lines

`Splits start s lines` says what the physical lines of a text are, without saying how they are
found: each holds a content without breaks and a terminator, the pieces concatenate to the text,
and `start` counts the characters in front of them. There is exactly one such list of lines
(`splits_iff`), and `physicalLines` finds it.

The lines up to a content depend on nothing behind that content (`Splits.replace`).
-/

namespace Assemblage.Text
set_option autoImplicit false

/-! ## Runs of a class -/

theorem takeWhile_append_stop {α : Type} {p : α → Bool} {w rest : List α} (hw : ∀ a ∈ w, p a = true)
    (hr : ∀ a ∈ rest.head?, p a = false) : (w ++ rest).takeWhile p = w := by
  rw [List.takeWhile_append_of_pos hw]
  cases rest with
  | nil => simp
  | cons a rest =>
    have ha : p a = false := hr a rfl
    simp [ha]

theorem dropWhile_append_stop {α : Type} {p : α → Bool} {w rest : List α} (hw : ∀ a ∈ w, p a = true)
    (hr : ∀ a ∈ rest.head?, p a = false) : (w ++ rest).dropWhile p = rest := by
  rw [List.dropWhile_append_of_pos hw]
  cases rest with
  | nil => rfl
  | cons a rest =>
    have ha : p a = false := hr a rfl
    simp [ha]

theorem head?_dropWhile_false {α : Type} {p : α → Bool} {s : List α} :
    ∀ a ∈ (s.dropWhile p).head?, p a = false := by
  intro a ha
  have h := List.head?_dropWhile_not p s
  rw [Option.mem_def.mp ha] at h
  simpa using h

theorem unbroken_of_all {s : List Char} (h : s.all (fun c => !isBreak c) = true) :
    ∀ c ∈ s, isBreak c = false := by
  simpa using h

/-! ## Splitting -/

/-- What ends a line: both breaks at once, a carriage return that no line feed follows, a line
feed, or the end of the text behind a line that holds something. -/
inductive Ends (content : List Char) : List Char → List Char → Prop where
  | both (rest : List Char) : Ends content ['\r', '\n'] rest
  | carriageReturn (rest : List Char) (h : rest.head? ≠ some '\n') : Ends content ['\r'] rest
  | lineFeed (rest : List Char) : Ends content ['\n'] rest
  | endOfText (h : content ≠ []) : Ends content [] []

/-- The lines of a text with `start` characters in front of it. -/
inductive Splits : Nat → List Char → List Line → Prop where
  | nil (start : Nat) : Splits start [] []
  | cons {start : Nat} {content terminator rest : List Char} {lines : List Line}
      (plain : ∀ c ∈ content, isBreak c = false) (ended : Ends content terminator rest)
      (more : Splits (start + content.length + terminator.length) rest lines) :
      Splits start (content ++ terminator ++ rest) (⟨start, content, terminator⟩ :: lines)

theorem Ends.cutBreak_eq {content terminator rest : List Char} (h : Ends content terminator rest) :
    cutBreak (terminator ++ rest) = (terminator, rest) := by
  cases h with
  | both => rfl
  | lineFeed => rfl
  | endOfText => rfl
  | carriageReturn _ h =>
    cases rest with
    | nil => rfl
    | cons c rest =>
      have hc : c ≠ '\n' := fun e => h (by rw [e]; rfl)
      simp [cutBreak, hc]

theorem Ends.head?_isBreak {content terminator rest : List Char}
    (h : Ends content terminator rest) : ∀ c ∈ (terminator ++ rest).head?, isBreak c = true := by
  intro c hc
  cases h with
  | both | carriageReturn | lineFeed =>
    simp only [List.cons_append, List.head?_cons, Option.mem_def, Option.some.injEq] at hc
    rw [← hc]
    rfl
  | endOfText => simp at hc

theorem Ends.ne_nil {content terminator rest : List Char} (h : Ends content terminator rest) :
    content ++ terminator ++ rest ≠ [] := by
  cases h with
  | both | carriageReturn | lineFeed => simp
  | endOfText h => simpa using h

/-- A text that can follow the content of a line: nothing, or a break. -/
def Follows (rest : List Char) : Prop := ∀ c ∈ rest.head?, isBreak c = true

theorem ends_of_follows {content rest : List Char} (h : Follows rest)
    (hc : rest = [] → content ≠ []) : Ends content (cutBreak rest).1 (cutBreak rest).2 := by
  unfold cutBreak
  split
  · exact .both _
  · next c rest hnot =>
    have hcase : c = '\n' ∨ c = '\r' := by simpa [isBreak] using h c rfl
    rcases hcase with rfl | rfl
    · exact .lineFeed _
    · refine .carriageReturn _ ?_
      intro hn
      obtain ⟨tail, rfl⟩ := List.head?_eq_some_iff.mp hn
      exact hnot tail rfl rfl
  · exact .endOfText (hc rfl)

theorem follows_dropWhile (s : List Char) : Follows (s.dropWhile fun c => !isBreak c) := by
  intro c hc
  simpa using head?_dropWhile_false c hc

theorem splits_number (start : Nat) (s : List Char) :
    Splits start s (number start (cutLines isBreak s)) := by
  fun_induction cutLines isBreak s generalizing start with
  | case1 => exact .nil start
  | case2 c s content rest cut ih =>
    have happ : content ++ rest = c :: s := List.takeWhile_append_dropWhile
    have hends : Ends content cut.1 cut.2 := by
      refine ends_of_follows (follows_dropWhile (c :: s)) ?_
      intro hrest hcontent
      rw [hrest, hcontent] at happ
      exact List.cons_ne_nil c s happ.symm
    have hplain : ∀ a ∈ content, isBreak a = false := by
      intro a ha
      simpa using List.mem_takeWhile_imp ha
    have hparts : content ++ cut.1 ++ cut.2 = c :: s := by
      rw [List.append_assoc, cutBreak_append, happ]
    rw [← hparts]
    exact .cons hplain hends (ih _)

theorem splits_physicalLines (s : List Char) : Splits 0 s (physicalLines s) := splits_number 0 s

theorem Splits.eq_number {start : Nat} {s : List Char} {lines : List Line}
    (h : Splits start s lines) : lines = number start (cutLines isBreak s) := by
  induction h with
  | nil start => rw [cutLines, number]
  | @cons start content terminator rest lines plain ended more ih =>
    have hhead : ∀ c ∈ (terminator ++ rest).head?, (!isBreak c) = false := by
      intro c hc
      simpa using ended.head?_isBreak c hc
    have hplain : ∀ c ∈ content, (!isBreak c) = true := by
      intro c hc
      simpa using plain c hc
    have htake := takeWhile_append_stop hplain hhead
    have hdrop := dropWhile_append_stop hplain hhead
    rw [← List.append_assoc] at htake hdrop
    have hcut : cutLines isBreak (content ++ terminator ++ rest) =
        (content, terminator) :: cutLines isBreak rest := by
      have hne := ended.ne_nil
      generalize content ++ terminator ++ rest = s at hne htake hdrop
      cases s with
      | nil => exact absurd rfl hne
      | cons c s =>
        rw [cutLines]
        simp only [htake, hdrop, ended.cutBreak_eq]
    rw [hcut, number, ← ih]

/-- There is exactly one way to split a text. -/
theorem splits_iff {start : Nat} {s : List Char} {lines : List Line} :
    Splits start s lines ↔ lines = number start (cutLines isBreak s) := by
  constructor
  · exact Splits.eq_number
  · intro h
    rw [h]
    exact splits_number start s

theorem exists_first_line {s : List Char} (hs : s ≠ []) :
    ∃ content rest, s = content ++ rest ∧ (∀ c ∈ content, isBreak c = false) ∧ Follows rest ∧
      (rest = [] → content ≠ []) := by
  have happ : s.takeWhile (fun c => !isBreak c) ++ s.dropWhile (fun c => !isBreak c) = s :=
    List.takeWhile_append_dropWhile
  refine ⟨_, _, happ.symm, ?_, follows_dropWhile s, ?_⟩
  · intro c hc
    simpa using List.mem_takeWhile_imp hc
  · intro hrest hcontent
    rw [hrest, hcontent] at happ
    exact hs happ.symm

/-- The first line of a text, and the lines of what is behind its terminator. -/
theorem physicalLines_append {content rest : List Char} (hplain : ∀ c ∈ content, isBreak c = false)
    (hne : rest = [] → content ≠ []) (hrest : Follows rest) :
    physicalLines (content ++ rest) = ⟨0, content, (cutBreak rest).1⟩ ::
      number (content.length + (cutBreak rest).1.length) (cutLines isBreak (cutBreak rest).2) := by
  have hsplits := Splits.cons hplain (ends_of_follows hrest hne)
    (splits_number (0 + content.length + (cutBreak rest).1.length) (cutBreak rest).2)
  rw [List.append_assoc, cutBreak_append, Nat.zero_add] at hsplits
  exact hsplits.eq_number.symm

/-! ## The text of lines -/

/-- A line with its terminator. -/
def Line.text (l : Line) : List Char := l.content ++ l.terminator

theorem Splits.flatMap_text {start : Nat} {s : List Char} {lines : List Line}
    (h : Splits start s lines) : lines.flatMap Line.text = s := by
  induction h with
  | nil => rfl
  | cons _ _ _ ih => rw [List.flatMap_cons, ih, Line.text]

theorem Splits.start_eq {start : Nat} {s : List Char} {before after : List Line} {line : Line}
    (h : Splits start s (before ++ line :: after)) :
    line.start = start + (before.flatMap Line.text).length := by
  generalize hlines : before ++ line :: after = lines at h
  induction h generalizing before with
  | nil => simp at hlines
  | cons plain ended more ih =>
    cases before with
    | nil =>
      obtain ⟨rfl, -⟩ := List.cons.inj hlines
      simp
    | cons l before =>
      obtain ⟨rfl, hmore⟩ := List.cons.inj hlines
      rw [ih hmore]
      simp only [List.flatMap_cons, List.length_append, Line.text]
      omega

/-- What is in front of a line. -/
theorem Splits.take_start {s : List Char} {before after : List Line} {line : Line}
    (h : Splits 0 s (before ++ line :: after)) : s.take line.start = before.flatMap Line.text := by
  rw [h.start_eq, Nat.zero_add, ← h.flatMap_text, List.flatMap_append, List.take_left]

theorem Splits.content_ne_break {start : Nat} {s : List Char} {lines : List Line}
    (h : Splits start s lines) : ∀ l ∈ lines, ∀ c ∈ l.content, isBreak c = false := by
  induction h with
  | nil => simp
  | cons plain _ _ ih =>
    intro l hl
    rcases List.mem_cons.mp hl with rfl | hl
    · exact plain
    · exact ih l hl

/-- Texts without breaks, each with a line feed behind it, are lines. -/
theorem splits_of_lines {ds : List (List Char)} (hd : ∀ d ∈ ds, ∀ c ∈ d, isBreak c = false)
    {rest : List Char} {more : List Line} (start : Nat)
    (h : Splits (start + (ds.flatMap (· ++ ['\n'])).length) rest more) :
    ∃ lines, lines.map Line.content = ds ∧ (∀ line ∈ lines, line.terminator = ['\n']) ∧
      Splits start (ds.flatMap (· ++ ['\n']) ++ rest) (lines ++ more) := by
  induction ds generalizing start with
  | nil => exact ⟨[], rfl, by simp, by simpa using h⟩
  | cons d ds ih =>
    have hmore : Splits (start + d.length + 1 + (ds.flatMap (· ++ ['\n'])).length) rest more := by
      have e : start + d.length + 1 + (ds.flatMap (· ++ ['\n'])).length =
          start + ((d :: ds).flatMap (· ++ ['\n'])).length := by
        simp only [List.flatMap_cons, List.length_append, List.length_singleton]
        omega
      rw [e]
      exact h
    obtain ⟨lines, hcontents, hterminators, hsplits⟩ :=
      ih (fun e he => hd e (List.mem_cons_of_mem _ he)) _ hmore
    refine ⟨⟨start, d, ['\n']⟩ :: lines, by rw [List.map_cons, hcontents], ?_, ?_⟩
    · intro line hline
      rcases List.mem_cons.mp hline with rfl | hline
      · rfl
      · exact hterminators line hline
    · have hcons := Splits.cons (hd d List.mem_cons_self) (.lineFeed _) hsplits
      simpa [List.append_assoc] using hcons

theorem physicalLines_of_lines {ds : List (List Char)} (hd : ∀ d ∈ ds, ∀ c ∈ d, isBreak c = false) :
    (physicalLines (ds.flatMap (· ++ ['\n']))).map Line.content = ds := by
  obtain ⟨lines, hcontents, -, hsplits⟩ := splits_of_lines hd 0 (.nil _)
  rw [List.append_nil, List.append_nil] at hsplits
  rw [physicalLines, ← hsplits.eq_number, hcontents]

/-! ## What lines depend on -/

theorem Ends.of_head? {content terminator rest : List Char} (h : Ends content terminator rest)
    (hterm : terminator ≠ []) {rest' : List Char} (hr : rest'.head? = rest.head?) :
    Ends content terminator rest' := by
  cases h with
  | both => exact .both rest'
  | lineFeed => exact .lineFeed rest'
  | carriageReturn _ h => exact .carriageReturn rest' (by rw [hr]; exact h)
  | endOfText => exact absurd rfl hterm

/-- The lines in front of a content, and that content, stay when the text behind it changes. -/
theorem Splits.replace {start : Nat} {s : List Char} {before after : List Line} {line : Line}
    (h : Splits start s (before ++ line :: after)) (hc : line.content ≠ [])
    {rest : List Char} (hr : Follows rest) :
    ∃ line' after', line'.content = line.content ∧
      Splits start (before.flatMap Line.text ++ line.content ++ rest)
        (before ++ line' :: after') := by
  generalize hlines : before ++ line :: after = lines at h
  induction h generalizing before with
  | nil => simp at hlines
  | @cons start content terminator tail lines plain ended more ih =>
    cases before with
    | nil =>
      obtain ⟨rfl, -⟩ := List.cons.inj hlines
      have hsplit := Splits.cons plain (ends_of_follows hr fun _ => hc)
        (splits_number (start + content.length + (cutBreak rest).1.length) _)
      rw [List.append_assoc, cutBreak_append] at hsplit
      exact ⟨⟨start, content, (cutBreak rest).1⟩, _, rfl, hsplit⟩
    | cons l before =>
      obtain ⟨rfl, hmore⟩ := List.cons.inj hlines
      obtain ⟨line', after', hcontent, hsplit⟩ := ih hmore
      refine ⟨line', after', hcontent, ?_⟩
      have htail : before.flatMap Line.text ++ line.content ++
          (line.terminator ++ after.flatMap Line.text) = tail := by
        rw [← more.flatMap_text, ← hmore]
        simp [Line.text]
      have hfull : before.flatMap Line.text ++ line.content ≠ [] := by simp [hc]
      have hne : terminator ≠ [] := by
        intro hnil
        subst hnil
        cases ended with
        | endOfText => exact hfull (List.append_eq_nil_iff.mp htail).1
      have hhead : (before.flatMap Line.text ++ line.content ++ rest).head? = tail.head? := by
        obtain ⟨c, more, hfull⟩ := List.exists_cons_of_ne_nil hfull
        rw [← htail, hfull]
        rfl
      have hcons := Splits.cons plain (ended.of_head? hne hhead) hsplit
      simpa [Line.text] using hcons

end Assemblage.Text
