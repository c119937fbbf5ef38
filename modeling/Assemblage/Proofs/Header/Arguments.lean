import Assemblage.Proofs.Header.Hoisted
import Assemblage.Proofs.Text.Brackets

/-!
# Type arguments

The arguments of a type stand between angle brackets and hold no semicolon. The language of
directives has them with one more level of brackets inside, and no deeper: `mem_arguments_iff` says
so by the depth of the brackets, without the way in which the language is put together.

Main statement: a directive that gives a type with arguments a short name is hoisted, and the header
goes on behind it, exactly if its arguments hold one level of brackets at most
(`extract_arguments`).
-/

namespace Assemblage.Directive
set_option autoImplicit false
open Computability Matcher Assemblage.Text Assemblage.Brackets

/-! ## Properties that join -/

theorem joins_nested {n : Int} (hn : 0 ≤ n) : Joins (Nested '<' '>' n) where
  plain := fun _ hw => .of_plain hn
    ⟨fun hc => absurd (hw _ hc) (by decide), fun hc => absurd (hw _ hc) (by decide)⟩
  append := fun _ _ => .append

theorem Joins.and {P Q : List Char → Prop} (hP : Joins P) (hQ : Joins Q) :
    Joins fun w => P w ∧ Q w where
  plain := fun w hw => ⟨hP.plain w hw, hQ.plain w hw⟩
  append := fun v w hv hw => ⟨hP.append v w hv.1 hw.1, hQ.append v w hv.2 hw.2⟩

/-! ## Between the brackets -/

namespace Grammar

/-- What stands between the brackets of type arguments. -/
def inside : Language Char := runOf isArgument * innerArguments∗

theorem mem_innerArguments {w : List Char} :
    w ∈ innerArguments ↔ ∃ a ∈ runOf isArgument, ∃ b ∈ runOf isArgument,
      w = '<' :: (a ++ '>' :: b) := by
  simp only [innerArguments, List.prod_cons, List.prod_nil, mul_one, mem_char_mul]
  constructor
  · rintro ⟨v, hv, rfl⟩
    obtain ⟨a, ha, u, hu, rfl⟩ := Language.mem_mul.mp hv
    obtain ⟨b, hb, rfl⟩ := mem_char_mul.mp hu
    exact ⟨a, ha, b, hb, rfl⟩
  · rintro ⟨a, ha, b, hb, rfl⟩
    exact ⟨_, Language.append_mem_mul ha (mem_char_mul.mpr ⟨b, hb, rfl⟩), rfl⟩

theorem mem_arguments {w : List Char} :
    w ∈ arguments ↔ ∃ g ∈ inside, w = '<' :: (g ++ ['>']) := by
  have hparts : arguments = charIn (· == '<') * (inside * charIn (· == '>')) := by
    simp only [arguments, inside, List.prod_cons, List.prod_nil, mul_one, mul_assoc]
  simp only [hparts, mem_char_mul, mem_mul_char]
  constructor
  · rintro ⟨v, ⟨g, hg, rfl⟩, rfl⟩
    exact ⟨g, hg, rfl⟩
  · rintro ⟨g, hg, rfl⟩
    exact ⟨_, ⟨g, hg, rfl⟩, rfl⟩

theorem cons_mem_inside {c : Char} {w : List Char} (hc : isArgument c = true) (hw : w ∈ inside) :
    c :: w ∈ inside := by
  obtain ⟨a, ha, b, hb, rfl⟩ := Language.mem_mul.mp hw
  refine Language.append_mem_mul (a := c :: a) ?_ hb
  intro d hd
  rcases List.mem_cons.mp hd with rfl | hd
  · exact hc
  · exact ha d hd

/-- One more pair of brackets in front, with arguments in it. -/
theorem block_mem_inside {a w : List Char} (ha : a ∈ runOf isArgument) (hw : w ∈ inside) :
    '<' :: (a ++ '>' :: w) ∈ inside := by
  obtain ⟨b, hb, more, hmore, rfl⟩ := Language.mem_mul.mp hw
  have hblock : '<' :: (a ++ '>' :: b) ∈ innerArguments :=
    mem_innerArguments.mpr ⟨a, ha, b, hb, rfl⟩
  have hstar : '<' :: (a ++ '>' :: b) ++ more ∈ innerArguments∗ :=
    (mul_kstar_le_kstar (a := innerArguments)) (Language.append_mem_mul hblock hmore)
  simpa [inside] using Language.append_mem_mul (nil_mem_runOf isArgument) hstar

end Grammar

theorem every_inside : Every (fun w => Nested '<' '>' 1 w ∧ ';' ∉ w) Grammar.inside := by
  have hjoins := (joins_nested (n := 1) (by decide)).and joins_semicolon
  have hrun : Every _ (runOf isArgument) := fun w hw => hjoins.plain w hw
  refine hjoins.mul hrun (hjoins.kstar ?_)
  intro w hw
  obtain ⟨a, ha, b, hb, rfl⟩ := Grammar.mem_innerArguments.mp hw
  have hflat : Nested '<' '>' 0 a := (joins_nested (Int.le_refl 0)).plain a ha
  have hblock : Nested '<' '>' (0 + 1) ('<' :: (a ++ ['>'])) :=
    (nested_block (by decide) (Int.le_refl 0) hflat.toBalanced).mpr hflat
  have hend : ';' ∉ '<' :: (a ++ ['>']) := by simp [(hrun a ha).2]
  have happ := hjoins.append _ _ ⟨hblock, hend⟩ (hrun b hb)
  rwa [List.cons_append, List.append_assoc] at happ

/-- With `k` brackets open in front of it, a text that opens one more at most, and closes them all,
is arguments between brackets, or their rest from inside an inner pair on. -/
theorem mem_inside_from {g : List Char} (hend : ';' ∉ g) {k : Int}
    (hwithin : ∀ a, a <+: g → 0 ≤ k + depth '<' '>' a ∧ k + depth '<' '>' a ≤ 1)
    (hclosed : k + depth '<' '>' g = 0) :
    (k = 0 → g ∈ Grammar.inside) ∧
      (k = 1 → ∃ a ∈ runOf isArgument, ∃ w ∈ Grammar.inside, g = a ++ '>' :: w) := by
  induction g generalizing k with
  | nil =>
    have hnil : depth '<' '>' [] = 0 := rfl
    refine ⟨fun _ => ⟨[], fun c hc => absurd hc List.not_mem_nil, [], ?_, rfl⟩, fun hk => ?_⟩
    · exact Language.nil_mem_kstar _
    · omega
  | cons c g ih =>
    have hstep : ∀ a, depth '<' '>' (c :: a) = depth '<' '>' [c] + depth '<' '>' a := depth_cons c
    have hfirst := hwithin [c] (List.cons_prefix_cons.mpr ⟨rfl, List.nil_prefix⟩)
    have hrest := @ih (fun hmem => hend (List.mem_cons_of_mem c hmem)) (k + depth '<' '>' [c])
      (fun a ha => by
        have hle := hwithin (c :: a) (List.cons_prefix_cons.mpr ⟨rfl, ha⟩)
        rw [hstep] at hle
        omega)
      (by rw [hstep] at hclosed; omega)
    by_cases hopen : c = '<'
    · -- an opening bracket leads from the outer level to the inner one
      subst hopen
      rw [depth_open (by decide)] at hfirst hrest
      refine ⟨fun hk => ?_, fun hk => by omega⟩
      obtain ⟨a, ha, w, hw, rfl⟩ := hrest.2 (by omega)
      exact Grammar.block_mem_inside ha hw
    by_cases hclose : c = '>'
    · subst hclose
      rw [depth_close (by decide)] at hfirst hrest
      refine ⟨fun hk => by omega, fun hk => ?_⟩
      exact ⟨[], fun d hd => absurd hd List.not_mem_nil, g, hrest.1 (by omega), rfl⟩
    have hc : isArgument c = true := by
      have hne : c ≠ ';' := fun e => hend (by rw [e]; exact List.mem_cons_self)
      simp [isArgument, hne, hopen, hclose]
    rw [depth_other hopen hclose] at hrest
    refine ⟨fun hk => Grammar.cons_mem_inside hc (hrest.1 (by omega)), fun hk => ?_⟩
    obtain ⟨a, ha, w, hw, rfl⟩ := hrest.2 (by omega)
    refine ⟨c :: a, ?_, w, hw, rfl⟩
    intro d hd
    rcases List.mem_cons.mp hd with rfl | hd
    · exact hc
    · exact ha d hd

theorem mem_inside_iff {g : List Char} :
    g ∈ Grammar.inside ↔ Nested '<' '>' 1 g ∧ ';' ∉ g := by
  constructor
  · exact every_inside g
  · rintro ⟨hnested, hend⟩
    refine (mem_inside_from (k := 0) hend (fun a ha => ?_) ?_).1 rfl
    · have hnonneg := hnested.nonneg a ha
      have hshallow := hnested.shallow a ha
      omega
    · have hclosed := hnested.closed
      omega

/-- Type arguments are what stands between two angle brackets, without semicolons and with one more
level of brackets at most. -/
theorem mem_arguments_iff {w : List Char} :
    w ∈ Grammar.arguments ↔ ∃ g, w = '<' :: (g ++ ['>']) ∧ Nested '<' '>' 1 g ∧ ';' ∉ g := by
  rw [Grammar.mem_arguments]
  constructor
  · rintro ⟨g, hg, hw⟩
    exact ⟨g, hw, mem_inside_iff.mp hg⟩
  · rintro ⟨g, hw, hg⟩
    exact ⟨g, mem_inside_iff.mpr hg, hw⟩

/-! ## Short names for types with arguments -/

/-- A directive that gives a type a short name, up to the type's arguments. -/
def aliasHead (name dotted : List Char) : List Char :=
  "using".toList ++ [' '] ++ name ++ [' ', '=', ' '] ++ dotted

/-- A directive that gives a type with arguments a short name. -/
def aliasLine (name dotted arguments : List Char) : List Char :=
  aliasHead name dotted ++ '<' :: (arguments ++ ['>', ';'])

theorem aliasLine_eq (name dotted g : List Char) :
    aliasLine name dotted g = aliasHead name dotted ++ '<' :: (g ++ ['>']) ++ [';'] := by
  simp [aliasLine]

theorem using_chars : "using".toList = ['u', 's', 'i', 'n', 'g'] := String.toList_ofList

theorem isName_using : ∀ k ∈ DirectiveGrammar.usual.keywords, IsName k := by
  intro k hk
  rw [List.mem_singleton.mp hk]
  have hrest : ['s', 'i', 'n', 'g'].all isNamePart = true := by decide
  exact ⟨'u', ['s', 'i', 'n', 'g'], using_chars, by decide, List.all_eq_true.mp hrest⟩

theorem aliasLine_head (name dotted g : List Char) :
    ∃ more, aliasLine name dotted g = 'u' :: more := by
  unfold aliasLine aliasHead
  rw [using_chars]
  exact ⟨_, rfl⟩

theorem blank_mem : [' '] ∈ Grammar.blanks := by
  intro c hc
  rw [List.mem_singleton.mp hc]
  rfl

section
variable {name dotted g : List Char} (hname : name ∈ Grammar.name) (hdotted : dotted ∈ Grammar.dotted)
include hname hdotted

theorem subject_of_arguments (hg : '<' :: (g ++ ['>']) ∈ Grammar.arguments) :
    aliasHead name dotted ++ '<' :: (g ++ ['>']) ∈
      Grammar.subject DirectiveGrammar.usual.keywords := by
  have hkeyword : "using".toList ∈ Grammar.keyword DirectiveGrammar.usual.keywords :=
    List.mem_singleton_self _
  have hgap : [' '] ∈ runOf1 isBlank :=
    Language.append_mem_mul (show [' '] ∈ charIn isBlank from ⟨' ', rfl, rfl⟩)
      (nil_mem_runOf isBlank)
  have hshort : [name, [' '], ['='], [' ']].flatten ∈ Grammar.shortName :=
    flatten_mem_prod (.cons hname (.cons blank_mem (.cons (mem_charIn.mpr rfl)
      (.cons blank_mem .nil))))
  have hqualified : dotted ++ ([] ++ '<' :: (g ++ ['>'])) ∈ Grammar.qualified := by
    rw [Grammar.qualified_eq]
    exact Language.append_mem_mul hdotted
      (.inl (Language.append_mem_mul (nil_mem_runOf isBlank) hg))
  have hparts := flatten_mem_prod (.cons hkeyword (.cons hgap (.cons
    (show [] ∈ exactly "static".toList * runOf1 isBlank + 1 from .inr rfl) (.cons
      (show _ ∈ Grammar.shortName + 1 from .inl hshort) (.cons hqualified
        (.cons (show [] ∈ Grammar.blanks from nil_mem_runOf isBlank) .nil))))))
  have hflat : ∀ keyword : List Char,
      [keyword, [' '], [], [name, [' '], ['='], [' ']].flatten,
        dotted ++ ([] ++ '<' :: (g ++ ['>'])), []].flatten =
      keyword ++ [' '] ++ name ++ [' ', '=', ' '] ++ dotted ++ '<' :: (g ++ ['>']) := by
    intro keyword
    simp
  rw [hflat] at hparts
  exact hparts

/-- The directive is one exactly if its arguments hold one level of brackets at most. -/
theorem clause_aliasLine_iff (hend : ';' ∉ g) (hg : Balanced '<' '>' g) :
    aliasLine name dotted g ∈ Grammar.clause DirectiveGrammar.usual.keywords ↔
      Nested '<' '>' 1 g := by
  rw [aliasLine_eq, Grammar.clause, mem_mul_char]
  constructor
  · rintro ⟨u, hu, heq⟩
    obtain rfl := List.append_cancel_right heq
    have hjoins := joins_nested (n := 2) (by decide)
    have hnested : Nested '<' '>' 2 (aliasHead name dotted ++ '<' :: (g ++ ['>'])) := by
      refine hjoins.subject (fun k hk => ?_) (fun w hw => ?_) _ hu
      · obtain rfl : k = "using" := by simpa [DirectiveGrammar.usual] using hk
        rw [using_chars]
        decide
      · obtain ⟨a, rfl, ha, -⟩ := mem_arguments_iff.mp hw
        exact (nested_block (by decide) (by decide) ha.toBalanced).mpr ha
    have hflat := joins_nested (Int.le_refl 0)
    have husing : Nested '<' '>' 0 ("using".toList ++ [' ']) := by
      rw [using_chars]
      decide
    have hfront : Nested '<' '>' 0 (aliasHead name dotted) :=
      ((husing.append (hflat.name _ hname)).append (by decide)).append (hflat.dotted _ hdotted)
    have hblock := Nested.of_append hfront.closed hnested
    exact (nested_block (by decide) (by decide) hg).mp hblock
  · intro hnested
    have harguments := mem_arguments_iff.mpr ⟨g, rfl, hnested, hend⟩
    exact ⟨_, subject_of_arguments hname hdotted harguments, rfl⟩

omit hdotted in
theorem isBreak_name : ∀ c ∈ name, isBreak c = false := by
  obtain ⟨sign, hsign, _, hbehind, rfl⟩ := Language.mem_mul.mp hname
  obtain ⟨_, ⟨d, hd, rfl⟩, _, htail, rfl⟩ := Language.mem_mul.mp hbehind
  obtain ⟨more, hmore, _, rfl, rfl⟩ := Language.mem_mul.mp htail
  have hnone : ∀ c, isNamePart c = true → isBreak c = false := by
    intro c hc
    rw [isBreak, Bool.or_eq_false_iff, beq_eq_false_iff_ne, beq_eq_false_iff_ne]
    constructor
    · rintro rfl
      exact absurd hc (by decide)
    · rintro rfl
      exact absurd hc (by decide)
  have hfirst : isBreak d = false := hnone d (by simp [isNamePart, hd])
  intro c hc
  simp only [List.append_nil, List.mem_append, List.mem_singleton] at hc
  rcases hc with hc | rfl | hc
  · rcases hsign with hsign | hsign
    · rw [mem_charIn.mp hsign, List.mem_singleton] at hc
      rw [hc]
      rfl
    · rw [(Language.mem_one sign).mp hsign] at hc
      cases hc
  · exact hfirst
  · exact hnone c (hmore c hc)

theorem captured_aliasLine (hend : ';' ∉ g) :
    captured (aliasLine name dotted g) = aliasLine name dotted g := by
  have hhead : ';' ∉ aliasHead name dotted := by
    have hname := joins_semicolon.name _ hname
    have hdotted := joins_semicolon.dotted _ hdotted
    unfold aliasHead
    rw [using_chars]
    simp [hname, hdotted]
  have hsubject : ';' ∉ aliasHead name dotted ++ '<' :: (g ++ ['>']) := by simp [hhead, hend]
  have hflush : (aliasLine name dotted g).dropWhile isPadding = aliasLine name dotted g := by
    obtain ⟨more, hmore⟩ := aliasLine_head name dotted g
    rw [hmore]
    exact dropWhile_head more rfl
  rw [captured, hflush, aliasLine_eq, takeWhile_semicolon hsubject]

theorem recognise_aliasLine (hend : ';' ∉ g) (hg : Balanced '<' '>' g) :
    recognise DirectiveGrammar.usual.keywords (aliasLine name dotted g) =
      if Nested '<' '>' 1 g then some (aliasLine name dotted g) else none := by
  have hkeywords : ∀ k ∈ DirectiveGrammar.usual.keywords, Opens k := fun k hk =>
    (isName_using k hk).opens
  have hiff := clause_aliasLine_iff hname hdotted hend hg
  split
  · next hnested =>
    exact (recognise_iff hkeywords).mpr ⟨[], [], by simp, by simp, hiff.mpr hnested, rfl⟩
  · next hdeep =>
    cases hfound : recognise DirectiveGrammar.usual.keywords (aliasLine name dotted g) with
    | none => rfl
    | some w =>
      have hholds := holds_of_recognise hfound
      obtain rfl := (hholds.eq_captured hkeywords).trans (captured_aliasLine hname hdotted hend)
      obtain ⟨-, -, -, -, hclause, -⟩ := hholds
      exact absurd (hiff.mp hclause) hdeep

/-- **A type with arguments gets a short name exactly if its arguments hold one level of brackets at
most.** Such a line is a directive at the top of a text, and the header goes on behind it; with more
levels it ends the header. -/
theorem extract_arguments (hend : ';' ∉ g) (hline : ∀ c ∈ dotted ++ g, isBreak c = false)
    (hg : Balanced '<' '>' g) {rest : List Char} (hrest : Follows rest) :
    let line := aliasLine name dotted g
    let more := Header.extract .usual (cutBreak rest).2
    let e := Header.extract .usual (line ++ rest)
    (Nested '<' '>' 1 g →
      Header.directive? .usual line = some line ∧ e.directives = line :: more.directives ∧
        e.body (line ++ rest) =
          if more.directives = [] then rest else more.body (cutBreak rest).2) ∧
    (¬Nested '<' '>' 1 g → Header.directive? .usual line = none ∧ e.directives = []) := by
  intro line more e
  have hplain : ∀ c ∈ line, isBreak c = false := by
    obtain ⟨hdotted, hg⟩ := List.forall_mem_append.mp hline
    unfold line aliasLine aliasHead
    rw [using_chars]
    simp only [List.forall_mem_append]
    refine ⟨⟨⟨⟨⟨unbroken_of_all (by decide), unbroken_of_all (by decide)⟩, isBreak_name hname⟩,
      unbroken_of_all (by decide)⟩, hdotted⟩, ?_⟩
    exact List.forall_mem_cons.mpr
      ⟨rfl, List.forall_mem_append.mpr ⟨hg, unbroken_of_all (by decide)⟩⟩
  have hrecognise := recognise_aliasLine hname hdotted hend hg
  obtain ⟨chars, hchars⟩ := aliasLine_head name dotted g
  have hmark : line.dropWhile isMark = line := by
    rw [show line = 'u' :: chars from hchars]
    exact dropWhile_head chars rfl
  have hdirective : Header.directive? .usual line =
      recognise DirectiveGrammar.usual.keywords line := by
    rw [Header.directive?, hmark]
  constructor
  · intro hnested
    have hclause := (clause_aliasLine_iff hname hdotted hend hg).mpr hnested
    have hhoisted : Hoisted .usual line := hoisted_clause isName_using hclause hplain
    rw [hdirective, hrecognise, if_pos hnested]
    exact ⟨rfl, extract_line hhoisted hrest⟩
  · intro hdeep
    have hkind : Header.Reference.kind .usual line = .other := by
      have hnone := hrecognise.trans (if_neg hdeep)
      rw [hchars] at hnone
      rw [show line = 'u' :: chars from hchars, kind_of_head rfl (by decide), hnone]
    rw [hdirective, hrecognise, if_neg hdeep]
    exact ⟨rfl, extract_of_other hplain hkind hrest⟩

end

/-! ## Arguments of one level and of two -/

theorem dotted_of_name {w : List Char} (h : w ∈ Grammar.name) : w ∈ Grammar.dotted := by
  have hparts : [[], w, []].flatten ∈ Grammar.dotted :=
    flatten_mem_prod (.cons (.inr rfl) (.cons h (.cons (Language.nil_mem_kstar _) .nil)))
  simpa using hparts

/-- A list inside a dictionary: the line is hoisted, and so is the next one. -/
theorem extract_arguments_dictionary :
    let name := "A".toList
    let dotted := "Dictionary".toList
    let g := "string, List<int>".toList
    let line := aliasLine name dotted g
    name ∈ Grammar.name ∧ dotted ∈ Grammar.dotted ∧ ';' ∉ g ∧
      (∀ c ∈ dotted ++ g, isBreak c = false) ∧ Balanced '<' '>' g ∧ Nested '<' '>' 1 g ∧
      (Header.extract .usual (line ++ "\nusing B;".toList)).directives =
        [line, "using B;".toList] := by
  intro name dotted g line
  have hname : name ∈ Grammar.name := matches_name.mem_iff.mpr (by decide +kernel)
  have hdotted : dotted ∈ Grammar.dotted :=
    dotted_of_name (matches_name.mem_iff.mpr (by decide +kernel))
  have hend : ';' ∉ g := by decide +kernel
  have hline : ∀ c ∈ dotted ++ g, isBreak c = false := unbroken_of_all (by decide +kernel)
  have hnested : Nested '<' '>' 1 g := by decide +kernel
  have hrest : Follows "\nusing B;".toList := by
    intro c hc
    have hhead : "\nusing B;".toList.head? = some '\n' := by decide +kernel
    rw [hhead] at hc
    obtain rfl : '\n' = c := by simpa using hc
    rfl
  obtain ⟨-, hdirectives, -⟩ :=
    (extract_arguments hname hdotted hend hline hnested.toBalanced hrest).1 hnested
  have hmore : (Header.extract .usual (cutBreak "\nusing B;".toList).2).directives =
      ["using B;".toList] := by
    decide +kernel
  rw [hmore] at hdirectives
  exact ⟨hname, hdotted, hend, hline, hnested.toBalanced, hnested, hdirectives⟩

/-- Two levels of brackets inside the outer pair: the line is no directive, and the one behind it is
not hoisted either. -/
theorem extract_deeper_arguments :
    let name := "A".toList
    let dotted := "T".toList
    let g := "B<C<D>>".toList
    let line := aliasLine name dotted g
    name ∈ Grammar.name ∧ dotted ∈ Grammar.dotted ∧ ';' ∉ g ∧ ¬"//".toList <:+: g ∧
      (∀ c ∈ dotted ++ g, isBreak c = false) ∧ Balanced '<' '>' g ∧
      Header.directive? .usual line = none ∧
      (Header.extract .usual (line ++ "\nusing E;".toList)).directives = [] := by
  intro name dotted g line
  have hname : name ∈ Grammar.name := matches_name.mem_iff.mpr (by decide +kernel)
  have hdotted : dotted ∈ Grammar.dotted :=
    dotted_of_name (matches_name.mem_iff.mpr (by decide +kernel))
  have hnested : Nested '<' '>' 2 g := by decide +kernel
  exact ⟨hname, hdotted, by decide +kernel, by decide +kernel, unbroken_of_all
    (by decide +kernel), hnested.toBalanced, by decide +kernel, by decide +kernel⟩

end Assemblage.Directive
