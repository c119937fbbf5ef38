import Assemblage.Proofs.Text.Lines

/-!
# Contents of lines

Lines cut at any set of breaks, without their terminators. No content holds a break
(`not_break_of_mem_cutLines`), and a text without breaks is one line (`cutLines_unbroken`).

Two texts with a line feed between them have the lines of the one and then those of the other, as
far as the lines hold anything (`filledLines_seam`). The line feed may end a line of the first
text, follow a break at its end, or be one terminator with a carriage return there; the last two
differ by a line without content.
-/

namespace Assemblage.Text
set_option autoImplicit false

variable {breaks : Char → Bool}

theorem cutLines_of_ne_nil {s : List Char} (hs : s ≠ []) :
    cutLines breaks s =
      (s.takeWhile fun c => !breaks c, (cutBreak (s.dropWhile fun c => !breaks c)).1) ::
        cutLines breaks (cutBreak (s.dropWhile fun c => !breaks c)).2 := by
  cases s with
  | nil => exact absurd rfl hs
  | cons c s => rw [cutLines]

theorem not_break_of_mem_cutLines {s : List Char} :
    ∀ line ∈ cutLines breaks s, ∀ c ∈ line.1, breaks c = false := by
  fun_induction cutLines breaks s with
  | case1 => simp
  | case2 c s content rest cut ih =>
    intro line hline
    rcases List.mem_cons.mp hline with rfl | hline
    · intro a ha
      simpa using List.mem_takeWhile_imp ha
    · exact ih line hline

theorem cutLines_unbroken {s : List Char} (hs : s ≠ []) (h : ∀ c ∈ s, breaks c = false) :
    cutLines breaks s = [(s, [])] := by
  have htake : s.takeWhile (fun c => !breaks c) = s :=
    List.takeWhile_eq_self_iff.mpr fun c hc => by simp [h c hc]
  have hdrop : s.dropWhile (fun c => !breaks c) = [] :=
    List.dropWhile_eq_nil_iff.mpr fun c hc => by simp [h c hc]
  rw [cutLines_of_ne_nil hs, htake, hdrop]
  simp [cutBreak, cutLines]

/-! ## Two texts with a line feed between them -/

/-- The contents of the lines that hold something. -/
def filledLines (breaks : Char → Bool) (s : List Char) : List (List Char) :=
  ((cutLines breaks s).map Prod.fst).filter (· != [])

theorem filledLines_nil : filledLines breaks [] = [] := by simp [filledLines, cutLines]

theorem filledLines_of_ne_nil {s : List Char} (hs : s ≠ []) :
    filledLines breaks s =
      [s.takeWhile fun c => !breaks c].filter (· != []) ++
        filledLines breaks (cutBreak (s.dropWhile fun c => !breaks c)).2 := by
  rw [filledLines, cutLines_of_ne_nil hs, List.map_cons, ← List.singleton_append,
    List.filter_append]
  rfl

/-- A terminator at the front of a text stays what it is when a line feed and more text follow,
unless it is a carriage return at the end, which takes that line feed in. -/
theorem cutBreak_append_feed {s : List Char} (hs : s ≠ []) (hreturn : s ≠ ['\r'])
    (rest : List Char) :
    (cutBreak (s ++ '\n' :: rest)).2 = (cutBreak s).2 ++ '\n' :: rest := by
  cases s with
  | nil => exact absurd rfl hs
  | cons c s =>
    by_cases hc : c = '\r'
    · subst hc
      cases s with
      | nil => exact absurd rfl hreturn
      | cons d s =>
        by_cases hd : d = '\n'
        · subst hd
          rfl
        · simp [cutBreak, hd]
    · simp [cutBreak, hc]

/-- **A line feed between two texts** neither loses nor makes a line that holds something. -/
theorem filledLines_seam (hfeed : breaks '\n' = true) (a b : List Char) :
    filledLines breaks (a ++ '\n' :: b) = filledLines breaks a ++ filledLines breaks b := by
  induction a using cutLines.induct breaks with
  | case1 =>
    rw [List.nil_append, filledLines_of_ne_nil (List.cons_ne_nil _ _), filledLines_nil]
    simp [hfeed, cutBreak]
  | case2 c s rest cut ih =>
    obtain ⟨content, hcontent⟩ : ∃ content, content = (c :: s).takeWhile fun c => !breaks c :=
      ⟨_, rfl⟩
    have hsplit : content ++ rest = c :: s := by
      rw [hcontent]
      exact List.takeWhile_append_dropWhile
    have hall : ∀ a ∈ content, (!breaks a) = true := by
      intro a ha
      rw [hcontent] at ha
      simpa using List.mem_takeWhile_imp ha
    have hstop : ∀ a ∈ (rest ++ '\n' :: b).head?, (!breaks a) = false := by
      cases hrest : rest with
      | nil => simp [hfeed]
      | cons d more =>
        rintro a ⟨⟩
        exact head?_dropWhile_false d (show d ∈ rest.head? by rw [hrest]; rfl)
    have hwhole : c :: s ++ '\n' :: b = content ++ (rest ++ '\n' :: b) := by
      rw [← hsplit, List.append_assoc]
    have hfirst : filledLines breaks (c :: s) =
        [content].filter (· != []) ++ filledLines breaks cut.2 := by
      rw [hcontent]
      exact filledLines_of_ne_nil (List.cons_ne_nil c s)
    have hboth : filledLines breaks (c :: s ++ '\n' :: b) =
        [content].filter (· != []) ++ filledLines breaks (cutBreak (rest ++ '\n' :: b)).2 := by
      rw [filledLines_of_ne_nil (by simp), hwhole, takeWhile_append_stop hall hstop,
        dropWhile_append_stop hall hstop]
    rw [hfirst, hboth, List.append_assoc]
    congr 1
    by_cases hnil : rest = []
    · -- The first text ends inside a line, and the line feed ends that line.
      have hcut : cut.2 = [] := by simp only [cut, hnil, cutBreak]
      rw [hcut, hnil, filledLines_nil]
      rfl
    by_cases hreturn : rest = ['\r']
    · -- The line feed is a part of the terminator at the end of the first text.
      have hcut : cut.2 = [] := by simp only [cut, hreturn, cutBreak]
      rw [hcut, hreturn, filledLines_nil]
      rfl
    · rw [cutBreak_append_feed hnil hreturn]
      exact ih

end Assemblage.Text
