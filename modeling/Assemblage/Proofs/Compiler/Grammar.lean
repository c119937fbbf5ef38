import Assemblage.Compiler.Report
import Assemblage.Proofs.Text.Brackets
import Assemblage.Proofs.Text.Classes
import Assemblage.Proofs.Text.Preferred

/-!
# The grammar of diagnostics

A diagnostic ends in a clause: a heading that says its severity and code, and behind it the message
(`clause?_eq_some_iff`). A location may stand in front; it ends in a place, and a colon parts it
from the clause. The languages of these parts are in `Report.Grammar`.

A place, the colon behind it and the heading of a clause together are a mark. Only the first
character of a mark is an opening parenthesis, so that whether a mark stands at the front of a text
does not depend on what the next parenthesis brings (`Marked.of_append`).
-/

namespace Assemblage.Report
set_option autoImplicit false
open Assemblage.Text Assemblage.Matcher

namespace Grammar

def number : Language Char := runOf1 isDigit

/-- What stands between the parentheses of a place. -/
def position : Language Char :=
  [number, charIn (· == ','), number,
    [charIn (· == ','), number, charIn (· == ','), number].prod + 1].prod

def place : Language Char := charIn (· == '(') * (position * charIn (· == ')'))

def gap : Language Char := runOf1 isBlank

def colon : Language Char := runOf isBlank * charIn (· == ':') * runOf isBlank

def code : Language Char := runOf1 isLetter * charIn isDigit * runOf isDigit

/-- What a clause holds in front of its message. -/
def heading (severity : Severity) (code : List Char) : Language Char :=
  {h | ∃ g ∈ gap, ∃ k ∈ colon, h = severity.name.toList ++ (g ++ (code ++ k))}

/-- What ends a location and begins a clause. -/
def mark : Language Char :=
  {m | ∃ p ∈ place, ∃ k ∈ colon, ∃ severity, ∃ c ∈ code, ∃ h ∈ heading severity c,
    m = p ++ (k ++ h)}

end Grammar

/-! ## Alphabets -/

/-- No parenthesis. -/
def isOther (c : Char) : Bool := c != '(' && c != ')'

theorem runOf_other (p : Char → Bool) (hp : p '(' = false ∧ p ')' = false) :
    runOf p ≤ runOf isOther := by
  intro w hw c hc
  have hne : c ≠ '(' ∧ c ≠ ')' := by
    constructor <;> rintro rfl <;> have hclass := hw _ hc <;> simp [hp] at hclass
  simp [isOther, hne]

theorem charIn_le_runOf (p : Char → Bool) : charIn p ≤ runOf p := by
  rintro w ⟨d, hd, rfl⟩ c hc
  rw [List.mem_singleton.mp hc]
  exact hd

theorem mul_le_runOf {L M : Language Char} {p : Char → Bool} (hL : L ≤ runOf p)
    (hM : M ≤ runOf p) : L * M ≤ runOf p := by
  rintro _ ⟨v, hv, w, hw, rfl⟩
  exact List.forall_mem_append.mpr ⟨hL hv, hM hw⟩

theorem runOf1_le_runOf (p : Char → Bool) : runOf1 p ≤ runOf p :=
  mul_le_runOf (charIn_le_runOf p) le_rfl

theorem charIn_other (p : Char → Bool) (hp : p '(' = false ∧ p ')' = false) :
    charIn p ≤ runOf isOther :=
  (charIn_le_runOf p).trans (runOf_other p hp)

theorem runOf1_other (p : Char → Bool) (hp : p '(' = false ∧ p ')' = false) :
    runOf1 p ≤ runOf isOther :=
  (runOf1_le_runOf p).trans (runOf_other p hp)

theorem one_le_runOf (p : Char → Bool) : (1 : Language Char) ≤ runOf p := by
  intro w hw
  rw [(Language.mem_one w).mp hw]
  exact nil_mem_runOf p

theorem prod_le_runOf {Ls : List (Language Char)} {p : Char → Bool}
    (h : Ls.Forall (· ≤ runOf p)) : Ls.prod ≤ runOf p := by
  induction Ls with
  | nil => exact one_le_runOf p
  | cons L Ls ih =>
    rw [List.forall_cons] at h
    rw [List.prod_cons]
    exact mul_le_runOf h.1 (ih h.2)

theorem colon_le : Grammar.colon ≤ runOf isOther :=
  mul_le_runOf (mul_le_runOf (runOf_other isBlank (by decide)) (charIn_other _ (by decide)))
    (runOf_other isBlank (by decide))

theorem code_le_runOf {p : Char → Bool} (hletter : runOf isLetter ≤ runOf p)
    (hdigit : runOf isDigit ≤ runOf p) : Grammar.code ≤ runOf p :=
  mul_le_runOf (mul_le_runOf ((runOf1_le_runOf isLetter).trans hletter)
    ((charIn_le_runOf isDigit).trans hdigit)) hdigit

theorem code_le : Grammar.code ≤ runOf isOther :=
  code_le_runOf (runOf_other isLetter (by decide)) (runOf_other isDigit (by decide))

theorem position_le : Grammar.position ≤ runOf isOther := by
  have hnumber : Grammar.number ≤ runOf isOther := runOf1_other isDigit (by decide)
  have hcomma : charIn (· == ',') ≤ runOf isOther := charIn_other _ (by decide)
  have hend : [charIn (· == ','), Grammar.number, charIn (· == ','), Grammar.number].prod + 1 ≤
      runOf isOther :=
    sup_le (prod_le_runOf ⟨hcomma, hnumber, hcomma, hnumber⟩) (one_le_runOf _)
  exact prod_le_runOf ⟨hnumber, hcomma, hnumber, hend⟩

/-! ## Letters -/

/-- The code points of letters. -/
def letterRanges : List (Nat × Nat) := [(0x41, 0x5A), (0x61, 0x7A)]

theorem isLetter_eq (c : Char) : isLetter c = inRanges letterRanges c.toNat := by
  simp only [isLetter, inRanges, letterRanges, List.any_cons, List.any_nil, Bool.or_false]
  rfl

theorem isDigit_of_isLetter {c : Char} (h : isLetter c = true) : isDigit c = false := by
  rw [isLetter_eq] at h
  rw [isDigit_eq]
  exact inRanges_of_disjoint (by decide +kernel) h

theorem isBlank_of_isLetter {c : Char} (h : isLetter c = true) : isBlank c = false := by
  rw [isLetter_eq] at h
  rw [isBlank_eq]
  exact inRanges_of_disjoint (by decide) h

/-! ## Preferred matches -/

variable {s rest : List Char}

theorem matches_place : Matches place Grammar.place := by
  have hnumber : Matches number Grammar.number := matches_most1 isDigit
  have hchar (c : Char) : Matches (char c) (charIn (· == c)) := matches_one _
  have hend : Matches (row [char ',', number, char ',', number])
      [charIn (· == ','), Grammar.number, charIn (· == ','), Grammar.number].prod :=
    .row (.cons (hchar _) (.cons hnumber (.cons (hchar _) (.cons hnumber .nil))))
  have hrow := Matches.row (.cons (hchar '(') (.cons hnumber (.cons (hchar ',') (.cons hnumber
    (.cons hend.opt (.cons (hchar ')') .nil))))))
  simpa [place, Grammar.place, Grammar.position, mul_assoc] using hrow

theorem mem_place {w : List Char} (hw : w ∈ Grammar.place) :
    ∃ v ∈ Grammar.position, w = '(' :: (v ++ [')']) := by
  obtain ⟨u, hu, rfl⟩ := mem_char_mul.mp hw
  obtain ⟨v, hv, rfl⟩ := mem_mul_char.mp hu
  exact ⟨v, hv, rfl⟩

theorem prefixFree_place : PrefixFree Grammar.place := by
  have hrun : PrefixFree (runOf (· != ')') * charIn (· == ')')) :=
    prefixFree_run fun c hc => by simpa using hc
  refine hrun.mono fun w hw => ?_
  obtain ⟨v, hv, rfl⟩ := mem_place hw
  refine mem_mul_char.mpr ⟨'(' :: v, List.forall_mem_cons.mpr ⟨by decide, fun c hc => ?_⟩, rfl⟩
  have hother := position_le hv c hc
  simp only [isOther, Bool.and_eq_true] at hother
  exact hother.2

theorem head?_place :
    (place s).head? = some rest ↔ ∃ w ∈ Grammar.place, s = w ++ rest :=
  matches_place.head?_eq_some_iff prefixFree_place

theorem head?_gap :
    (most1 isBlank s).head? = some rest ↔
      ∃ g ∈ Grammar.gap, s = g ++ rest ∧ ∀ c ∈ rest.head?, isBlank c = false :=
  (matches_one isBlank).head?_seq_most (prefixFree_charIn isBlank)

theorem code_eq : code = seq (seq (most1 isLetter) (one isDigit)) (most isDigit) := by
  show seq (most1 isLetter) (seq (most1 isDigit) fun s => [s]) = _
  rw [seq_none, seq_assoc]
  rfl

theorem head?_code :
    (code s).head? = some rest ↔
      ∃ c ∈ Grammar.code, s = c ++ rest ∧ ∀ d ∈ rest.head?, isDigit d = false := by
  have hfree : PrefixFree (runOf isLetter * charIn isDigit) := prefixFree_run fun c hc => by
    by_contra hletter
    rw [isDigit_of_isLetter (by simpa using hletter)] at hc
    cases hc
  rw [code_eq]
  exact ((matches_most1 isLetter).seq (matches_one isDigit)).head?_seq_most
    (hfree.mono (mul_le_mul' (runOf1_le_runOf isLetter) le_rfl))

theorem colon_eq : colon = seq (seq (most isBlank) (one (· == ':'))) (most isBlank) := by
  show seq (most isBlank) (seq (one (· == ':')) (seq (most isBlank) fun s => [s])) = _
  rw [seq_none, seq_assoc]

theorem head?_colon :
    (colon s).head? = some rest ↔
      ∃ k ∈ Grammar.colon, s = k ++ rest ∧ ∀ c ∈ rest.head?, isBlank c = false := by
  have hfree : PrefixFree (runOf isBlank * charIn (· == ':')) := prefixFree_run fun c hc => by
    rw [eq_of_beq hc]
    decide
  rw [colon_eq]
  exact ((matches_most isBlank).seq (matches_one _)).head?_seq_most hfree

/-! ## Clauses -/

theorem severity?_eq_some_iff {severity : Severity} :
    severity? s = some (severity, rest) ↔ s = severity.name.toList ++ rest := by
  constructor
  · intro h
    obtain ⟨v, hv, hpair⟩ := Option.map_eq_some_iff.mp h
    obtain ⟨rfl, hdrop⟩ := Prod.mk.inj hpair
    have hprefix : v.name.toList.isPrefixOf s = true := by simpa using List.find?_some hv
    obtain ⟨t, rfl⟩ := List.isPrefixOf_iff_prefix.mp hprefix
    rw [← hdrop, ← String.length_toList, List.drop_left]
  · rintro rfl
    cases severity <;> rfl

theorem code_head {c : List Char} (hc : c ∈ Grammar.code) :
    ∃ a t, c = a :: t ∧ isBlank a = false := by
  obtain ⟨_, ⟨_, ⟨_, ⟨a, ha, rfl⟩, t, -, rfl⟩, d, -, rfl⟩, e, -, rfl⟩ := hc
  exact ⟨a, t ++ d ++ e, rfl, isBlank_of_isLetter ha⟩

theorem colon_head {k : List Char} (hk : k ∈ Grammar.colon) :
    ∃ a t, k = a :: t ∧ isDigit a = false := by
  obtain ⟨_, ⟨u, hu, _, ⟨d, hd, rfl⟩, rfl⟩, v, -, rfl⟩ := hk
  cases u with
  | nil =>
    rw [eq_of_beq hd]
    exact ⟨':', v, rfl, by decide⟩
  | cons a t => exact ⟨a, t ++ [d] ++ v, rfl, isDigit_of_isBlank (hu a List.mem_cons_self)⟩

theorem clause?_eq_some_iff {d : Diagnostic} :
    clause? s = some d ↔ ∃ severity, ∃ c ∈ Grammar.code, ∃ h ∈ Grammar.heading severity c,
      ∃ message, s = h ++ message ∧ (∀ a ∈ message.head?, isBlank a = false) ∧
        d = ⟨severity, .ofList (trimEnd isBlank message), some (.ofList c), none⟩ := by
  simp only [clause?, Option.bind_eq_bind, Option.bind_eq_some_iff, Prod.exists,
    severity?_eq_some_iff, head?_gap, head?_code, head?_colon, Option.pure_def,
    Option.some.injEq]
  constructor
  · rintro ⟨severity, _, rfl, _, ⟨g, hg, rfl, -⟩, _, ⟨c, hc, rfl, -⟩, message,
      ⟨k, hk, rfl, hmessage⟩, rfl⟩
    refine ⟨severity, c, hc, _, ⟨g, hg, k, hk, rfl⟩, message, by simp, hmessage, ?_⟩
    rw [front_append]
  · rintro ⟨severity, c, hc, _, ⟨g, hg, k, hk, rfl⟩, message, rfl, hmessage, rfl⟩
    refine ⟨severity, g ++ (c ++ (k ++ message)), by simp, c ++ (k ++ message),
      ⟨g, hg, rfl, ?_⟩, k ++ message, ⟨c, hc, rfl, ?_⟩, message, ⟨k, hk, rfl, hmessage⟩, ?_⟩
    · obtain ⟨a, t, rfl, ha⟩ := code_head hc
      rintro b ⟨⟩
      exact ha
    · obtain ⟨a, t, rfl, ha⟩ := colon_head hk
      rintro b ⟨⟩
      exact ha
    · rw [front_append]

section Headings
variable {severity : Severity} {c h : List Char}

theorem heading_head (hh : h ∈ Grammar.heading severity c) :
    ∃ a t, h = a :: t ∧ isBlank a = false := by
  obtain ⟨g, -, k, -, rfl⟩ := hh
  cases severity <;> exact ⟨_, _, rfl, by decide⟩

theorem heading_le (hc : c ∈ Grammar.code) (hh : h ∈ Grammar.heading severity c) :
    h ∈ runOf isOther := by
  obtain ⟨g, hg, k, hk, rfl⟩ := hh
  have hname : ∀ a ∈ severity.name.toList, isOther a = true :=
    List.all_eq_true.mp (by cases severity <;> decide)
  have hgap : ∀ a ∈ g, isOther a = true := runOf1_other isBlank (by decide) hg
  exact List.forall_mem_append.mpr ⟨hname, List.forall_mem_append.mpr
    ⟨hgap, List.forall_mem_append.mpr ⟨code_le hc, colon_le hk⟩⟩⟩

/-- Any text behind a heading can be a message; blanks in front of it belong to the heading. -/
theorem clause?_heading (hc : c ∈ Grammar.code) (hh : h ∈ Grammar.heading severity c)
    (tail : List Char) : (clause? (h ++ tail)).isSome = true := by
  obtain ⟨g, hg, _, ⟨u, hu, v, hv, rfl⟩, rfl⟩ := hh
  have hblank : v ++ tail.takeWhile isBlank ∈ runOf isBlank :=
    List.forall_mem_append.mpr ⟨hv, fun a ha => List.mem_takeWhile_imp ha⟩
  refine Option.isSome_iff_exists.mpr ⟨_, clause?_eq_some_iff.mpr ⟨severity, c, hc, _,
    ⟨g, hg, _, ⟨u, hu, _, hblank, rfl⟩, rfl⟩, tail.dropWhile isBlank, ?_, head?_dropWhile_false,
    rfl⟩⟩
  simp [List.takeWhile_append_dropWhile]

end Headings

/-! ## Marks -/

/-- Whether a mark stands at the front of a text. -/
def Marked (s : List Char) : Prop := ∃ m ∈ Grammar.mark, m <+: s

theorem mark_head {m : List Char} (hm : m ∈ Grammar.mark) : ∃ t, m = '(' :: t ∧ '(' ∉ t := by
  obtain ⟨p, hp, k, hk, severity, c, hc, h, hh, rfl⟩ := hm
  obtain ⟨v, hv, rfl⟩ := mem_place hp
  have hnot {w : List Char} (hw : w ∈ runOf isOther) : '(' ∉ w := fun hmem =>
    absurd (hw _ hmem) (by decide)
  refine ⟨v ++ [')'] ++ (k ++ h), by simp, ?_⟩
  simp [hnot (position_le hv), hnot (colon_le hk), hnot (heading_le hc hh)]

theorem Marked.append {s : List Char} (h : Marked s) (t : List Char) : Marked (s ++ t) := by
  obtain ⟨m, hm, hs⟩ := h
  exact ⟨m, hm, hs.trans (List.prefix_append s t)⟩

theorem Marked.head? {s : List Char} (h : Marked s) : s.head? = some '(' := by
  obtain ⟨m, hm, t, rfl⟩ := h
  obtain ⟨u, rfl, -⟩ := mark_head hm
  rfl

theorem not_marked_nil : ¬ Marked [] := fun h => by cases h.head?

/-- A mark that stands in front of a parenthesis ends in front of it. -/
theorem Marked.of_append {s t : List Char} (h : Marked (s ++ '(' :: t)) (hs : s ≠ []) :
    Marked s := by
  obtain ⟨m, hm, hprefix⟩ := h
  rcases Brackets.prefix_append_cases hprefix with hfront | ⟨b, hb, rfl⟩
  · exact ⟨m, hm, hfront⟩
  · cases b with
    | nil => exact ⟨s ++ [], hm, by simp⟩
    | cons a b =>
      obtain ⟨d, s, rfl⟩ := List.exists_cons_of_ne_nil hs
      obtain ⟨u, hu, hnot⟩ := mark_head hm
      obtain ⟨rfl, -⟩ := List.cons_prefix_cons.mp hb
      obtain ⟨-, rfl⟩ := List.cons.inj hu
      exact absurd (List.mem_append_right s List.mem_cons_self) hnot

/-! ## Locations -/

theorem located?_eq_some_iff (before : List Char) {part : List Char} {d : Diagnostic} :
    located? (before ++ part) part = some d ↔
      ∃ p ∈ Grammar.place, ∃ k ∈ Grammar.colon, ∃ rest d', part = p ++ (k ++ rest) ∧
        clause? rest = some d' ∧ d = { d' with location := some (.ofList (before ++ p)) } := by
  simp only [located?, Option.bind_eq_bind, Option.bind_eq_some_iff, head?_place, head?_colon,
    Option.pure_def, Option.some.injEq]
  constructor
  · rintro ⟨_, ⟨p, hp, rfl⟩, rest, ⟨k, hk, rfl, -⟩, d', hd', rfl⟩
    refine ⟨p, hp, k, hk, rest, d', rfl, hd', ?_⟩
    rw [← List.append_assoc, front_append]
  · rintro ⟨p, hp, k, hk, rest, d', rfl, hd', rfl⟩
    refine ⟨k ++ rest, ⟨p, hp, rfl⟩, rest, ⟨k, hk, rfl, ?_⟩, d', hd', ?_⟩
    · obtain ⟨severity, c, -, h, hh, message, rfl, -⟩ := clause?_eq_some_iff.mp hd'
      obtain ⟨a, t, rfl, ha⟩ := heading_head hh
      rintro b ⟨⟩
      exact ha
    · rw [← List.append_assoc, front_append]

theorem isSome_located?_iff (line : List Char) {part : List Char} :
    (located? line part).isSome = true ↔ Marked part := by
  rw [Option.isSome_iff_exists]
  simp only [located?, Option.bind_eq_bind, Option.bind_eq_some_iff, head?_place, head?_colon,
    Option.pure_def, Option.some.injEq]
  constructor
  · rintro ⟨_, _, ⟨p, hp, rfl⟩, _, ⟨k, hk, rfl, -⟩, d, hd, -⟩
    obtain ⟨severity, c, hc, h, hh, message, rfl, -⟩ := clause?_eq_some_iff.mp hd
    exact ⟨p ++ (k ++ h), ⟨p, hp, k, hk, severity, c, hc, h, hh, rfl⟩, message, by simp⟩
  · rintro ⟨_, ⟨p, hp, k, hk, severity, c, hc, h, hh, rfl⟩, tail, rfl⟩
    obtain ⟨d, hd⟩ := Option.isSome_iff_exists.mp (clause?_heading hc hh tail)
    refine ⟨_, k ++ (h ++ tail), ⟨p, hp, by simp⟩, h ++ tail, ⟨k, hk, rfl, ?_⟩, d, hd, rfl⟩
    obtain ⟨a, t, rfl, ha⟩ := heading_head hh
    rintro b ⟨⟩
    exact ha

theorem located?_eq_none_iff (line : List Char) {part : List Char} :
    located? line part = none ↔ ¬ Marked part := by
  rw [← isSome_located?_iff line, Bool.not_eq_true, Option.isSome_eq_false_iff,
    Option.isNone_iff_eq_none]

/-- A part of a line without a mark has no location to end. -/
theorem seek?_eq_none_iff {line part : List Char} :
    seek? line part = none ↔ ∀ y, y <:+ part → ¬ Marked y := by
  induction part with
  | nil =>
    constructor
    · intro _ y hy
      rw [List.suffix_nil.mp hy]
      exact not_marked_nil
    · intro _
      rfl
  | cons a part ih =>
    simp only [List.suffix_cons_iff, forall_eq_or_imp]
    rw [← ih, ← located?_eq_none_iff line, seek?]
    cases located? line (a :: part) <;> simp

/-- The first mark in a part of a line ends the location. -/
theorem seek?_eq_some_iff {line part : List Char} {d : Diagnostic} :
    seek? line part = some d ↔ ∃ skipped rest, part = skipped ++ rest ∧
      (∀ y, y <:+ skipped → y ≠ [] → ¬ Marked (y ++ rest)) ∧ located? line rest = some d := by
  induction part with
  | nil =>
    constructor
    · intro h
      cases h
    · rintro ⟨skipped, rest, hnil, -, hd⟩
      rw [(List.append_eq_nil_iff.mp hnil.symm).2,
        (located?_eq_none_iff line).mpr not_marked_nil] at hd
      cases hd
  | cons a part ih =>
    rw [seek?]
    cases hfirst : located? line (a :: part) with
    | some first =>
      have hmarked : Marked (a :: part) := by
        rw [← isSome_located?_iff line, hfirst]
        rfl
      constructor
      · rintro ⟨⟩
        exact ⟨[], a :: part, rfl, fun y hy hne => absurd (List.suffix_nil.mp hy) hne, hfirst⟩
      · rintro ⟨skipped, rest, hpart, hskip, hd⟩
        cases skipped with
        | nil =>
          obtain rfl : a :: part = rest := hpart
          exact hfirst.symm.trans hd
        | cons b skipped =>
          rw [hpart] at hmarked
          exact absurd hmarked (hskip _ List.suffix_rfl (List.cons_ne_nil b skipped))
    | none =>
      have hunmarked : ¬ Marked (a :: part) := (located?_eq_none_iff line).mp hfirst
      rw [ih]
      constructor
      · rintro ⟨skipped, rest, rfl, hskip, hd⟩
        refine ⟨a :: skipped, rest, rfl, fun y hy hne => ?_, hd⟩
        rcases List.suffix_cons_iff.mp hy with rfl | hy
        · exact hunmarked
        · exact hskip y hy hne
      · rintro ⟨skipped, rest, hpart, hskip, hd⟩
        cases skipped with
        | nil =>
          rw [List.nil_append] at hpart
          rw [← hpart, hfirst] at hd
          cases hd
        | cons b skipped =>
          obtain ⟨rfl, rfl⟩ := List.cons.inj hpart
          refine ⟨skipped, rest, rfl, fun y hy hne => ?_, hd⟩
          exact hskip y (hy.trans (List.suffix_cons a skipped)) hne

end Assemblage.Report
