import Assemblage.Proofs.Header.Arguments

/-!
# Lines with directives

`Grammar.line` is the language of the lines that hold a directive: spaces and tabs, the directive,
and perhaps a comment. A line can have several readings in it, since `static` is a name too and
neighbouring parts share white space, but the directive is the same in all of them. So what is
extracted depends on which keywords there are, and not on their order.

Main statement: `recognise_line`.
-/

namespace Assemblage.Directive
set_option autoImplicit false
open Computability Matcher Assemblage.Text Assemblage.Brackets

namespace Grammar

/-- The arguments of a type: brackets without semicolons between them, and one more level of
brackets at most. -/
def typeArguments : Language Char :=
  {w | ∃ g, w = '<' :: (g ++ ['>']) ∧ Nested '<' '>' 1 g ∧ ';' ∉ g}

/-- A directive: its keyword, perhaps `static`, perhaps a short name, and what it names. -/
def directive (keywords : List String) : Language Char :=
  [keyword keywords, runOf1 isBlank, exactly "static".toList * runOf1 isBlank + 1, shortName + 1,
    dotted * (blanks * typeArguments + 1), blanks, charIn (· == ';')].prod

/-- What stands behind a directive on its line. -/
def tail : Language Char := runOf isPadding * (exactly "//".toList * runOf (fun _ => true) + 1)

/-- A line with a directive. -/
def line (keywords : List String) : Language Char :=
  runOf isPadding * (directive keywords * tail)

theorem arguments_eq : arguments = typeArguments := Set.ext fun _ => mem_arguments_iff

theorem clause_eq (keywords : List String) : clause keywords = directive keywords := by
  simp only [directive, clause, subject, qualified_eq, arguments_eq, List.prod_cons, List.prod_nil,
    mul_assoc, mul_one]

end Grammar

theorem isTail_iff {tail : List Char} : isTail tail = true ↔ tail ∈ Grammar.tail := by
  rw [Grammar.tail, Language.mem_mul]
  constructor
  · intro h
    have hparts : tail.takeWhile isPadding ++ tail.dropWhile isPadding = tail :=
      List.takeWhile_append_dropWhile
    refine ⟨_, fun c hc => List.mem_takeWhile_imp hc, _, ?_, hparts⟩
    rcases Bool.or_eq_true_iff.mp h with hempty | hcomment
    · exact .inr (List.isEmpty_iff.mp hempty)
    · obtain ⟨text, htext⟩ := List.isPrefixOf_iff_prefix.mp hcomment
      rw [← htext]
      exact .inl (Language.append_mem_mul rfl fun _ _ => rfl)
  · rintro ⟨padding, hpadding, behind, hbehind, rfl⟩
    have hslash : "//".toList = ['/', '/'] := String.toList_ofList
    have hbehind : behind = [] ∨ ∃ text, behind = '/' :: '/' :: text := by
      rcases hbehind with ⟨comment, rfl, text, -, rfl⟩ | hnone
      · exact .inr ⟨text, by rw [hslash]; rfl⟩
      · exact .inl ((Language.mem_one behind).mp hnone)
    have hpad : (padding ++ behind).dropWhile isPadding = behind := by
      refine dropWhile_append_stop hpadding fun c hc => ?_
      rcases hbehind with rfl | ⟨text, rfl⟩
      · cases hc
      · obtain rfl : '/' = c := by simpa using hc
        rfl
    unfold isTail
    rw [hpad, hslash]
    rcases hbehind with rfl | ⟨text, rfl⟩ <;> rfl

theorem holds_iff {keywords : List String} {line : List Char} :
    line ∈ Grammar.line keywords ↔ ∃ clause, Holds keywords line clause := by
  rw [Grammar.line, ← Grammar.clause_eq]
  constructor
  · rintro ⟨padding, hpadding, _, ⟨clause, hclause, tail, htail, rfl⟩, rfl⟩
    exact ⟨clause, padding, tail, (List.append_assoc ..).symm, hpadding, hclause,
      isTail_iff.mpr htail⟩
  · rintro ⟨clause, padding, tail, rfl, hpadding, hclause, htail⟩
    rw [List.append_assoc]
    exact Language.append_mem_mul hpadding
      (Language.append_mem_mul hclause (isTail_iff.mp htail))

/-! ## The order of the keywords -/

theorem keyword_congr {keywords keywords' : List String} (h : ∀ k, k ∈ keywords' ↔ k ∈ keywords) :
    Grammar.line keywords' = Grammar.line keywords := by
  have hkeyword : Grammar.keyword keywords' = Grammar.keyword keywords := by
    ext w
    simp only [Grammar.keyword, List.mem_map, h]
  rw [Grammar.line, Grammar.directive, hkeyword, Grammar.line, Grammar.directive]

theorem recognise_eq_some_iff {keywords : List String} (hk : ∀ k ∈ keywords, Opens k)
    {line w : List Char} :
    recognise keywords line = some w ↔ line ∈ Grammar.line keywords ∧ w = captured line := by
  rw [recognise_iff hk, holds_iff]
  constructor
  · intro h
    exact ⟨⟨w, h⟩, h.eq_captured hk⟩
  · rintro ⟨⟨clause, h⟩, rfl⟩
    rwa [← h.eq_captured hk]

theorem recognise_congr {keywords keywords' : List String} (hk : ∀ k ∈ keywords, Opens k)
    (h : ∀ k, k ∈ keywords' ↔ k ∈ keywords) : recognise keywords' = recognise keywords := by
  funext line
  have hk' : ∀ k ∈ keywords', Opens k := fun k hm => hk k ((h k).mp hm)
  refine Option.ext fun w => ?_
  rw [recognise_eq_some_iff hk', recognise_eq_some_iff hk, keyword_congr h]

/-- **A line is recognised exactly if it is in the grammar, by the text up to its first semicolon.**
Whichever way such a line is taken apart, its directive is that text, and an extraction depends
neither on the order of the keywords nor on their repetition. -/
theorem recognise_line {keywords : List String} (hk : ∀ k ∈ keywords, Opens k) (line : List Char) :
    (∀ w, recognise keywords line = some w ↔
      line ∈ Grammar.line keywords ∧ w = captured line) ∧
    (∀ padding ∈ runOf isPadding, ∀ clause ∈ Grammar.directive keywords, ∀ tail ∈ Grammar.tail,
      line = padding ++ clause ++ tail → clause = captured line) ∧
    ∀ keywords', (∀ k, k ∈ keywords' ↔ k ∈ keywords) →
      recognise keywords' line = recognise keywords line ∧
        ∀ skip text, Header.extract ⟨keywords', skip⟩ text = Header.extract ⟨keywords, skip⟩ text := by
  refine ⟨fun w => recognise_eq_some_iff hk, ?_, ?_⟩
  · intro padding hpadding clause hclause tail htail hline
    have hholds : Holds keywords line clause :=
      ⟨padding, tail, hline, hpadding, by rwa [Grammar.clause_eq], isTail_iff.mpr htail⟩
    exact hholds.eq_captured hk
  · intro keywords' hsame
    have hrecognise := recognise_congr hk hsame
    exact ⟨congrFun hrecognise line, Header.extract_eq_of_recognise hrecognise⟩

/-- A line in which `static` is the short name, with a keyword that another one starts with. -/
theorem recognise_line_static :
    let keywords := ["using", "using static", "import"]
    let line := "\tusing static = A . B<C<D>, E> ; // F;".toList
    (∀ k ∈ keywords, Opens k) ∧ line ∈ Grammar.line keywords ∧
      recognise keywords line = some "using static = A . B<C<D>, E> ;".toList ∧
      recognise ["import", "using static", "import", "using"] line = recognise keywords line := by
  intro keywords line
  have hopens : ∀ k ∈ keywords, Opens k := by
    intro k hk
    have hcases : k = "using" ∨ k = "using static" ∨ k = "import" := by simpa [keywords] using hk
    rcases hcases with rfl | rfl | rfl
    · exact opens_of_toList (show _ = 'u' :: "sing".toList by decide +kernel)
        (by decide +kernel) rfl
    · exact opens_of_toList (show _ = 'u' :: "sing static".toList by decide +kernel)
        (by decide +kernel) rfl
    · exact opens_of_toList (show _ = 'i' :: "mport".toList by decide +kernel)
        (by decide +kernel) rfl
  obtain ⟨hiff, -, hcongr⟩ := recognise_line hopens line
  have hfound : recognise keywords line = some "using static = A . B<C<D>, E> ;".toList := by
    decide +kernel
  refine ⟨hopens, ((hiff _).mp hfound).1, hfound, (hcongr _ ?_).1⟩
  intro k
  simp only [keywords, List.mem_cons]
  grind

end Assemblage.Directive
