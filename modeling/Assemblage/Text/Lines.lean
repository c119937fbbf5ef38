/-!
Cutting a text into lines. A text is cut after each terminator; a carriage return and the line
feed behind it are one terminator, every other break character is one of its own. The pieces keep
their terminators, so that they concatenate to the text (`flatten_cutLines`).
-/

namespace Assemblage.Text
set_option autoImplicit false

/-- The breaks of physical lines. -/
def isBreak (c : Char) : Bool := c == '\n' || c == '\r'

/-- Every character that ends a line somewhere: also the vertical tab, the form feed, the
separators of files, groups and records, and the line and paragraph separators. -/
def isAnyBreak (c : Char) : Bool :=
  isBreak c || c == '\x0b' || c == '\x0c' || c == '\x1c' || c == '\x1d' || c == '\x1e' ||
    c == '\x85' || c == '\u2028' || c == '\u2029'

/-- Takes a terminator off a text that starts with a break character. -/
def cutBreak : List Char → List Char × List Char
  | '\r' :: '\n' :: rest => (['\r', '\n'], rest)
  | c :: rest => ([c], rest)
  | [] => ([], [])

theorem cutBreak_append (s : List Char) : (cutBreak s).1 ++ (cutBreak s).2 = s := by
  unfold cutBreak
  split <;> rfl

theorem cutBreak_length {s : List Char} (h : s ≠ []) : (cutBreak s).2.length < s.length := by
  unfold cutBreak
  split
  · simp only [List.length_cons]; omega
  · simp only [List.length_cons]; omega
  · contradiction

/-- The lines of a text, as pairs of content and terminator; only the last terminator can be
empty. -/
def cutLines (breaks : Char → Bool) (s : List Char) : List (List Char × List Char) :=
  match s with
  | [] => []
  | c :: s =>
    let content := (c :: s).takeWhile fun c => !breaks c
    let rest := (c :: s).dropWhile fun c => !breaks c
    let cut := cutBreak rest
    (content, cut.1) :: cutLines breaks cut.2
termination_by s.length
decreasing_by
  by_cases h : breaks c
  · have e : (c :: s).dropWhile (fun c => !breaks c) = c :: s := by simp [h]
    rw [e]
    exact cutBreak_length (by simp)
  · have le : (s.dropWhile fun c => !breaks c).length ≤ s.length :=
      (List.dropWhile_sublist _).length_le
    have e : (c :: s).dropWhile (fun c => !breaks c) = s.dropWhile fun c => !breaks c := by
      simp [h]
    rw [e]
    by_cases hr : s.dropWhile (fun c => !breaks c) = []
    · rw [hr]; simp [cutBreak]
    · have := cutBreak_length hr
      simp only [List.length_cons]
      omega

theorem flatten_cutLines (breaks : Char → Bool) (s : List Char) :
    (cutLines breaks s).flatMap (fun line => line.1 ++ line.2) = s := by
  fun_induction cutLines breaks s with
  | case1 => rfl
  | case2 c s content rest cut ih =>
    rw [List.flatMap_cons, ih, List.append_assoc, cutBreak_append]
    exact List.takeWhile_append_dropWhile

/-- A physical line: where it starts in its text, what it holds, and what ends it. -/
structure Line where
  start : Nat
  content : List Char
  terminator : List Char
  deriving DecidableEq, Repr

def number (start : Nat) : List (List Char × List Char) → List Line
  | [] => []
  | (content, terminator) :: rest =>
    ⟨start, content, terminator⟩ :: number (start + content.length + terminator.length) rest

/-- The physical lines of a text. -/
def physicalLines (s : List Char) : List Line := number 0 (cutLines isBreak s)

/-- The contents of the lines, cut at every kind of break. -/
def contentLines (s : List Char) : List (List Char) := (cutLines isAnyBreak s).map Prod.fst

/-- Every terminator of a physical line becomes one line feed. -/
def unifyBreaks : List Char → List Char
  | [] => []
  | '\r' :: '\n' :: rest => '\n' :: unifyBreaks rest
  | c :: rest => (if c = '\r' then '\n' else c) :: unifyBreaks rest

end Assemblage.Text
