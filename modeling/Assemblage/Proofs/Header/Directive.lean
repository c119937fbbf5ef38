import Assemblage.Header.Directive
import Assemblage.Proofs.Text.Lines
import Assemblage.Proofs.Text.Matcher

/-!
# The language of directives

`Grammar.clause` is the language of directives up to their semicolon, in the operations of
languages; the matcher `Directive.clause` matches it (`matches_clause`). A directive holds one
semicolon, at its end. So a line holds at most one directive, and `recognise` finds it however the
line is taken apart (`recognise_iff`).
-/

namespace Assemblage.Directive
set_option autoImplicit false
open Computability Matcher Assemblage.Text

/-! ## The language -/

namespace Grammar

def name : Language Char := [charIn (· == '@') + 1, charIn isNameStart, runOf isNamePart].prod

def blanks : Language Char := runOf isBlank

def innerArguments : Language Char :=
  [charIn (· == '<'), runOf isArgument, charIn (· == '>'), runOf isArgument].prod

def arguments : Language Char :=
  [charIn (· == '<'), runOf isArgument, innerArguments∗, charIn (· == '>')].prod

def qualified : Language Char :=
  [exactly "global::".toList + 1, name, ([blanks, charIn (· == '.'), blanks, name].prod)∗,
    blanks * arguments + 1].prod

/-- A qualified name without its type arguments. -/
def dotted : Language Char :=
  [exactly "global::".toList + 1, name, ([blanks, charIn (· == '.'), blanks, name].prod)∗].prod

theorem qualified_eq : qualified = dotted * (blanks * arguments + 1) := by
  simp only [qualified, dotted, List.prod_cons, List.prod_nil, mul_assoc, mul_one]

def shortName : Language Char := [name, blanks, charIn (· == '='), blanks].prod

def keyword (keywords : List String) : Language Char := {w | w ∈ keywords.map String.toList}

/-- A directive without its semicolon. -/
def subject (keywords : List String) : Language Char :=
  [keyword keywords, runOf1 isBlank, exactly "static".toList * runOf1 isBlank + 1, shortName + 1,
    qualified, blanks].prod

def clause (keywords : List String) : Language Char := subject keywords * charIn (· == ';')

end Grammar

theorem matches_char (c : Char) : Matches (char c) (charIn (· == c)) := matches_one _

theorem matches_blanks : Matches blanks Grammar.blanks := matches_most _

theorem matches_name : Matches name Grammar.name :=
  .row (.cons (matches_char '@').opt (.cons (matches_one _) (.cons (matches_most _) .nil)))

theorem matches_innerArguments : Matches innerArguments Grammar.innerArguments :=
  .row (.cons (matches_char '<') (.cons (matches_most _) (.cons (matches_char '>')
    (.cons (matches_most _) .nil))))

theorem matches_arguments : Matches arguments Grammar.arguments :=
  .row (.cons (matches_char '<') (.cons (matches_most _) (.cons matches_innerArguments.many
    (.cons (matches_char '>') .nil))))

theorem matches_qualified : Matches qualified Grammar.qualified := by
  have hpart : Matches (row [blanks, char '.', blanks, name])
      [Grammar.blanks, charIn (· == '.'), Grammar.blanks, Grammar.name].prod :=
    .row (.cons matches_blanks (.cons (matches_char '.') (.cons matches_blanks
      (.cons matches_name .nil))))
  exact .row (.cons (matches_word _).opt (.cons matches_name (.cons hpart.many
    (.cons (matches_blanks.seq matches_arguments).opt .nil))))

theorem matches_shortName : Matches shortName Grammar.shortName :=
  .row (.cons matches_name (.cons matches_blanks (.cons (matches_char '=')
    (.cons matches_blanks .nil))))

theorem matches_keyword (keywords : List String) :
    Matches (keyword keywords) (Grammar.keyword keywords) := by
  have h := matches_oneOf_words (keywords.map String.toList)
  rw [List.map_map] at h
  exact h

theorem matches_clause (keywords : List String) :
    Matches (clause keywords) (Grammar.clause keywords) := by
  have h : Matches (clause keywords)
      [Grammar.keyword keywords, runOf1 isBlank, exactly "static".toList * runOf1 isBlank + 1,
        Grammar.shortName + 1, Grammar.qualified, Grammar.blanks, charIn (· == ';')].prod :=
    .row (.cons (matches_keyword keywords) (.cons (matches_most1 _)
      (.cons ((matches_word _).seq (matches_most1 _)).opt (.cons matches_shortName.opt
        (.cons matches_qualified (.cons matches_blanks (.cons (matches_char ';') .nil)))))))
  have hprod : Grammar.clause keywords =
      [Grammar.keyword keywords, runOf1 isBlank, exactly "static".toList * runOf1 isBlank + 1,
        Grammar.shortName + 1, Grammar.qualified, Grammar.blanks, charIn (· == ';')].prod := by
    simp only [Grammar.clause, Grammar.subject, List.prod_cons, List.prod_nil, mul_assoc,
      mul_one]
  rw [hprod]
  exact h

/-! ## Properties of the parts -/

/-- A property of every plain text, which has no semicolon and no angle bracket, that two texts one
behind the other have if each has it. -/
structure Joins (P : List Char → Prop) : Prop where
  plain : ∀ w, (∀ c ∈ w, isArgument c = true) → P w
  append : ∀ v w, P v → P w → P (v ++ w)

/-- Whether every word of a language has a property. -/
def Every (P : List Char → Prop) (L : Language Char) : Prop := ∀ w ∈ L, P w

theorem isArgument_of_class {p : Char → Bool} (hp : [';', '<', '>'].all (fun c => !p c) = true)
    {c : Char} (hc : p c = true) : isArgument c = true := by
  have hne : ∀ d ∈ [';', '<', '>'], c ≠ d := by
    rintro d hd rfl
    have hnot := List.all_eq_true.mp hp c hd
    rw [hc] at hnot
    cases hnot
  simp only [List.mem_cons, List.not_mem_nil, or_false, forall_eq_or_imp, forall_eq] at hne
  simp [isArgument, hne]

namespace Joins
variable {P : List Char → Prop} (hP : Joins P)
include hP

theorem nil : P [] := hP.plain [] (fun _ hc => absurd hc List.not_mem_nil)

theorem runOf {p : Char → Bool} (hp : [';', '<', '>'].all (fun c => !p c) = true) :
    Every P (runOf p) :=
  fun w hw => hP.plain w fun c hc => isArgument_of_class hp (hw c hc)

theorem charIn {p : Char → Bool} (hp : [';', '<', '>'].all (fun c => !p c) = true) :
    Every P (charIn p) := by
  rintro w ⟨d, hd, rfl⟩
  refine hP.plain _ fun c hc => isArgument_of_class hp ?_
  rw [List.mem_singleton.mp hc]
  exact hd

theorem exactly {v : List Char} (hv : v.all isArgument = true) : Every P (exactly v) := by
  rintro w rfl
  exact hP.plain w (List.all_eq_true.mp hv)

theorem one : Every P 1 := by
  intro w hw
  rw [(Language.mem_one w).mp hw]
  exact hP.nil

variable {L M : Language Char}

theorem mul (hL : Every P L) (hM : Every P M) : Every P (L * M) := by
  intro x hx
  obtain ⟨v, hv, w, hw, rfl⟩ := Language.mem_mul.mp hx
  exact hP.append v w (hL v hv) (hM w hw)

theorem optional (hL : Every P L) : Every P (L + 1) := by
  rintro x (hx | hx)
  · exact hL x hx
  · exact hP.one x hx

theorem kstar (hL : Every P L) : Every P L∗ := by
  intro x hx
  obtain ⟨ws, rfl, hws⟩ := Language.mem_kstar.mp hx
  clear hx
  induction ws with
  | nil => exact hP.nil
  | cons w ws ih =>
    rw [List.flatten_cons]
    exact hP.append w _ (hL w (hws w List.mem_cons_self))
      (ih fun v hv => hws v (List.mem_cons_of_mem w hv))

theorem prod {Ls : List (Language Char)} (h : Ls.Forall (Every P)) : Every P Ls.prod := by
  induction Ls with
  | nil => exact hP.one
  | cons L Ls ih =>
    obtain ⟨hL, hLs⟩ := (List.forall_cons _ L Ls).mp h
    rw [List.prod_cons]
    exact hP.mul hL (ih hLs)

theorem name : Every P Grammar.name :=
  hP.prod ⟨hP.optional (hP.charIn (by decide)), hP.charIn (by decide), hP.runOf (by decide)⟩

theorem blanks : Every P Grammar.blanks := hP.runOf (by decide)

theorem blanks1 : Every P (runOf1 isBlank) := hP.mul (hP.charIn (by decide)) (hP.runOf (by decide))

theorem shortName : Every P Grammar.shortName :=
  hP.prod ⟨hP.name, hP.blanks, hP.charIn (by decide), hP.blanks⟩

theorem dotted : Every P Grammar.dotted :=
  hP.prod ⟨hP.optional (hP.exactly (by decide)), hP.name,
    hP.kstar (hP.prod ⟨hP.blanks, hP.charIn (by decide), hP.blanks, hP.name⟩)⟩

/-- A directive without its semicolon has the property if its keyword and its type arguments
have. -/
theorem subject {keywords : List String} (hk : ∀ k ∈ keywords, P k.toList)
    (harguments : Every P Grammar.arguments) : Every P (Grammar.subject keywords) := by
  have hkeyword : Every P (Grammar.keyword keywords) := by
    intro w hw
    obtain ⟨k, hk', rfl⟩ := List.mem_map.mp hw
    exact hk k hk'
  have hqualified : Every P Grammar.qualified := by
    rw [Grammar.qualified_eq]
    exact hP.mul hP.dotted (hP.optional (hP.mul hP.blanks harguments))
  exact hP.prod ⟨hkeyword, hP.blanks1, hP.optional (hP.mul (hP.exactly (by decide)) hP.blanks1),
    hP.optional hP.shortName, hqualified, hP.blanks⟩

end Joins

/-! ## Semicolons -/

theorem joins_semicolon : Joins fun w => ';' ∉ w where
  plain := fun _ hw hc => absurd (hw _ hc) (by decide)
  append := fun _ _ hv hw hc => (List.mem_append.mp hc).elim hv hw

/-- Type arguments hold no semicolon. -/
theorem semicolon_arguments : Every (fun w => ';' ∉ w) Grammar.arguments := by
  have hrun : Every (fun w => ';' ∉ w) (runOf isArgument) := fun w hw =>
    joins_semicolon.plain w hw
  have hbracket : ∀ c, c ≠ ';' → Every (fun w => ';' ∉ w) (charIn (· == c)) := by
    rintro c hc w ⟨d, hd, rfl⟩ hmem
    obtain rfl : d = c := by simpa using hd
    exact hc (List.mem_singleton.mp hmem).symm
  have hinner : Every (fun w => ';' ∉ w) Grammar.innerArguments :=
    joins_semicolon.prod ⟨hbracket '<' (by decide), hrun, hbracket '>' (by decide), hrun⟩
  exact joins_semicolon.prod ⟨hbracket '<' (by decide), hrun, joins_semicolon.kstar hinner,
    hbracket '>' (by decide)⟩

/-- The only semicolon of a directive is its last character. -/
theorem clause_split {keywords : List String} (h : ∀ k ∈ keywords, ';' ∉ k.toList) {w : List Char}
    (hw : w ∈ Grammar.clause keywords) : ∃ u, w = u ++ [';'] ∧ ';' ∉ u := by
  obtain ⟨u, hu, v, ⟨c, hc, rfl⟩, rfl⟩ := Language.mem_mul.mp hw
  obtain rfl : c = ';' := by simpa using hc
  exact ⟨u, rfl, joins_semicolon.subject h semicolon_arguments u hu⟩

/-! ## Recognition -/

/-- A line that holds a directive: spaces and tabs, the directive, and what may stand behind it. -/
def Holds (keywords : List String) (line clause : List Char) : Prop :=
  ∃ padding tail, line = padding ++ clause ++ tail ∧ (∀ c ∈ padding, isPadding c = true) ∧
    clause ∈ Grammar.clause keywords ∧ isTail tail = true

theorem mem_recognised {keywords : List String} {line w : List Char} :
    w ∈ ((most isPadding line).flatMap fun s => ((clause keywords s).filter isTail).map (front s)) ↔
      Holds keywords line w := by
  rw [List.mem_flatMap]
  constructor
  · rintro ⟨s, hs, hw⟩
    obtain ⟨padding, hpadding, rfl⟩ := (matches_most isPadding line s).mp hs
    obtain ⟨tail, htail, rfl⟩ := List.mem_map.mp hw
    obtain ⟨htail, hend⟩ := List.mem_filter.mp htail
    obtain ⟨clause, hclause, rfl⟩ := (matches_clause keywords s tail).mp htail
    rw [front_append]
    exact ⟨padding, tail, by rw [List.append_assoc], hpadding, hclause, hend⟩
  · rintro ⟨padding, tail, rfl, hpadding, hclause, hend⟩
    refine ⟨w ++ tail, (matches_most isPadding _ _).mpr ⟨padding, hpadding, ?_⟩, ?_⟩
    · rw [List.append_assoc]
    · refine List.mem_map.mpr ⟨tail, List.mem_filter.mpr ⟨?_, hend⟩, front_append w tail⟩
      exact (matches_clause keywords _ _).mpr ⟨w, hclause, rfl⟩

theorem holds_of_recognise {keywords : List String} {line clause : List Char}
    (h : recognise keywords line = some clause) : Holds keywords line clause :=
  mem_recognised.mp (List.mem_of_mem_head? h)

theorem recognise_of_holds {keywords : List String} {line clause : List Char}
    (h : Holds keywords line clause) : ∃ found, recognise keywords line = some found := by
  have hmem := mem_recognised.mpr h
  unfold recognise
  cases hlist : (most isPadding line).flatMap fun s =>
      ((Directive.clause keywords s).filter isTail).map (front s) with
  | nil =>
    rw [hlist] at hmem
    cases hmem
  | cons found rest => exact ⟨found, rfl⟩

/-! ## Keywords -/

/-- What can open a directive: a text that is not empty, holds no semicolon, and does not start
with a space or a tab. -/
structure Opens (keyword : String) : Prop where
  nonempty : keyword.toList ≠ []
  unended : ';' ∉ keyword.toList
  flush : ∀ c ∈ keyword.toList.head?, isPadding c = false

theorem opens_of_toList {keyword : String} {c : Char} {rest : List Char}
    (h : keyword.toList = c :: rest) (hend : ';' ∉ c :: rest) (hc : isPadding c = false) :
    Opens keyword := by
  refine ⟨by rw [h]; exact List.cons_ne_nil c rest, by rwa [h], fun d hd => ?_⟩
  rw [h] at hd
  obtain rfl : c = d := by simpa using hd
  exact hc

theorem clause_head {keywords : List String} {w : List Char} (hw : w ∈ Grammar.clause keywords) :
    ∃ k ∈ keywords, ∃ rest, w = k.toList ++ rest := by
  obtain ⟨u, hu, v, -, rfl⟩ := Language.mem_mul.mp hw
  rw [Grammar.subject, List.prod_cons] at hu
  obtain ⟨k, hk, more, -, rfl⟩ := Language.mem_mul.mp hu
  obtain ⟨keyword, hkeyword, rfl⟩ := List.mem_map.mp hk
  exact ⟨keyword, hkeyword, more ++ v, List.append_assoc _ _ _⟩

/-- What a line is recognised by: its text from behind the spaces and tabs in front to its first
semicolon. -/
def captured (line : List Char) : List Char :=
  (line.dropWhile isPadding).takeWhile (· != ';') ++ [';']

theorem takeWhile_semicolon {u : List Char} (hu : ';' ∉ u) (tail : List Char) :
    (u ++ ';' :: tail).takeWhile (· != ';') = u := by
  refine takeWhile_append_stop (fun c hc => ?_) (fun c hc => ?_)
  · rw [bne_iff_ne]
    rintro rfl
    exact hu hc
  · obtain rfl : ';' = c := by simpa using hc
    rfl

/-- However a line is taken apart, its directive is the same. -/
theorem Holds.eq_captured {keywords : List String} (hk : ∀ k ∈ keywords, Opens k)
    {line clause : List Char} (h : Holds keywords line clause) : clause = captured line := by
  obtain ⟨padding, tail, rfl, hpadding, hclause, -⟩ := h
  obtain ⟨k, hkeyword, rest, hhead⟩ := clause_head hclause
  obtain ⟨u, hu, hunended⟩ := clause_split (fun k hm => (hk k hm).unended) hclause
  have hflush : ∀ c ∈ (clause ++ tail).head?, isPadding c = false := by
    intro c hc
    obtain ⟨d, more, hchars⟩ := List.exists_cons_of_ne_nil (hk k hkeyword).nonempty
    have hd := (hk k hkeyword).flush d (by rw [hchars]; rfl)
    rw [hhead, hchars] at hc
    obtain rfl : d = c := by simpa using hc
    exact hd
  rw [captured, List.append_assoc, dropWhile_append_stop hpadding hflush, hu, List.append_assoc,
    List.singleton_append, takeWhile_semicolon hunended]

/-- A line is recognised by the directive that it holds. -/
theorem recognise_iff {keywords : List String} (hk : ∀ k ∈ keywords, Opens k)
    {line clause : List Char} :
    recognise keywords line = some clause ↔ Holds keywords line clause := by
  constructor
  · exact holds_of_recognise
  · intro h
    obtain ⟨found, hfound⟩ := recognise_of_holds h
    rw [hfound, (holds_of_recognise hfound).eq_captured hk, h.eq_captured hk]

/-! ## Names as keywords -/

/-- A name in ASCII, without a sign in front. -/
def IsName (keyword : String) : Prop :=
  ∃ c rest, keyword.toList = c :: rest ∧ isNameStart c = true ∧ ∀ d ∈ rest, isNamePart d = true

/-- The start of a name is none of the characters around directives and at the ends of lines. -/
theorem not_of_isNameStart {c : Char} {p : Char → Bool} (hc : isNameStart c = true)
    (hp : ∀ d, p d = true → d ∈ [' ', '\t', '\n', '\r', '\ufeff']) : p c = false := by
  cases h : p c with
  | false => rfl
  | true =>
    have hnone : [' ', '\t', '\n', '\r', '\ufeff'].all (fun d => !isNameStart d) = true := by
      decide
    have hnot := List.all_eq_true.mp hnone c (hp c h)
    rw [hc] at hnot
    cases hnot

theorem IsName.opens {keyword : String} (h : IsName keyword) : Opens keyword := by
  obtain ⟨c, rest, hk, hc, hrest⟩ := h
  refine opens_of_toList hk ?_ (not_of_isNameStart hc (by grind [isPadding]))
  intro hmem
  rcases List.mem_cons.mp hmem with rfl | hmem
  · exact absurd hc (by decide)
  · exact absurd (hrest _ hmem) (by decide)

theorem clause_head_of_name {keywords : List String} (h : ∀ k ∈ keywords, IsName k)
    {w : List Char} (hw : w ∈ Grammar.clause keywords) :
    ∃ c rest, w = c :: rest ∧ isNameStart c = true := by
  obtain ⟨k, hk, rest, rfl⟩ := clause_head hw
  obtain ⟨c, more, hchars, hc, -⟩ := h k hk
  exact ⟨c, more ++ rest, by rw [hchars]; rfl, hc⟩

end Assemblage.Directive
