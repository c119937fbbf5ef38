import Assemblage.Command.Markup
import Assemblage.Proofs.Text.Matcher
import Mathlib.Data.List.TakeWhile

/-!
# Tags

A reader of markup takes what looks like a tag for one, unless an odd number of backslashes stands
in front of it (`Markup.tags`). Whether a bracket opens a tag depends on the character behind it and
on the next bracket alone (`Markup.isEmpty_tag`).

So texts can be put one behind the other without giving a tag that neither of them holds, if the
first one is over when the second one starts (`Markup.tags_append`), and an escaped text gives no
tag at all, not even together with what stands behind it (`Markup.tags_escape_append`).

What is read as tags is what the plain text lacks: every opening bracket of a text starts one of its
tags or is printed (`Markup.count_plain`).
-/

namespace Assemblage.Markup
set_option autoImplicit false
open Matcher

/-! ## Reading tags -/

/-- The contents of the tags in a text behind so many backslashes. No bracket opens inside of a tag,
so that none is read twice. -/
def tagsFrom (slashes : Nat) : List Char → List (List Char)
  | [] => []
  | c :: rest =>
    if c == '\\' then tagsFrom (slashes + 1) rest
    else if (tag (c :: rest)).isEmpty || slashes % 2 == 1 then tagsFrom 0 rest
    else rest.takeWhile (· != ']') :: tagsFrom 0 rest

/-- The contents of the tags in a markup text. -/
def tags (markup : String) : List String := (tagsFrom 0 markup.toList).map String.ofList

def isBracket (c : Char) : Bool := c == '[' || c == ']'

/-- Whether a bracket in front of this text opens a tag. -/
def isOpened (s : List Char) : Bool := s.head?.any isTagStart && s.find? isBracket == some ']'

theorem isBracket_of_isTagStart {c : Char} (h : isTagStart c = true) : isBracket c = false := by
  have hopen : c ≠ '[' := by
    rintro rfl
    exact absurd h (by decide)
  have hclose : c ≠ ']' := by
    rintro rfl
    exact absurd h (by decide)
  simp [isBracket, hopen, hclose]

/-- A run without an opening bracket reaches a closing one if this is the next bracket. -/
theorem isEmpty_fewest (s : List Char) :
    (seq (fewest (· != '[')) (row [one (· == ']')]) s).isEmpty =
      !(s.find? isBracket == some ']') := by
  induction s with
  | nil => rfl
  | cons c s ih =>
    by_cases hopen : c = '['
    · subst hopen
      rfl
    · by_cases hclose : c = ']'
      · subst hclose
        rfl
      · have hbracket : isBracket c = false := by simp [isBracket, hopen, hclose]
        have hskip : seq (fewest (· != '[')) (row [one (· == ']')]) (c :: s) =
            seq (fewest (· != '[')) (row [one (· == ']')]) s := by
          simp [seq, row, fewest, one, hopen, hclose]
        rw [hskip, ih, List.find?_cons_of_neg (by simp [hbracket])]

theorem isEmpty_tag (c : Char) (s : List Char) :
    (tag (c :: s)).isEmpty = !(c == '[' && isOpened s) := by
  by_cases hc : c = '['
  · subst hc
    cases s with
    | nil => rfl
    | cons d s =>
      by_cases hd : isTagStart d = true
      · have htag : tag ('[' :: d :: s) = seq (fewest (· != '[')) (row [one (· == ']')]) s := by
          simp [tag, row, seq, one, hd]
        have hfind : (d :: s).find? isBracket = s.find? isBracket :=
          List.find?_cons_of_neg (by simp [isBracket_of_isTagStart hd])
        rw [htag, isEmpty_fewest, isOpened, hfind]
        simp [hd]
      · simp [tag, row, seq, one, isOpened, hd]
  · simp [tag, row, seq, one, hc]

theorem tagsFrom_cons {c : Char} (hc : c ≠ '\\') (slashes : Nat) (s : List Char) :
    tagsFrom slashes (c :: s) =
      (if c == '[' && isOpened s && slashes % 2 == 0 then [s.takeWhile (· != ']')] else []) ++
        tagsFrom 0 s := by
  have hslash : (c == '\\') = false := by simpa using hc
  rw [tagsFrom, isEmpty_tag, hslash]
  rcases Nat.mod_two_eq_zero_or_one slashes with hparity | hparity <;>
    cases c == '[' && isOpened s <;> simp [hparity]

theorem tagsFrom_slash (slashes : Nat) (s : List Char) :
    tagsFrom slashes ('\\' :: s) = tagsFrom (slashes + 1) s := rfl

theorem tagsFrom_replicate (slashes count : Nat) (s : List Char) :
    tagsFrom slashes (List.replicate count '\\' ++ s) = tagsFrom (slashes + count) s := by
  induction count generalizing slashes with
  | zero => rfl
  | succ count ih =>
    rw [List.replicate_succ, List.cons_append, tagsFrom_slash, ih, Nat.add_right_comm,
      Nat.add_assoc]

theorem tagsFrom_of_not_mem {s : List Char} (h : '[' ∉ s) (slashes : Nat) :
    tagsFrom slashes s = [] := by
  induction s generalizing slashes with
  | nil => rfl
  | cons c s ih =>
    have hs := List.not_mem_of_not_mem_cons h
    by_cases hslash : c = '\\'
    · rw [hslash, tagsFrom_slash, ih hs]
    · have hbracket : (c == '[') = false := by simpa using (List.ne_of_not_mem_cons h).symm
      rw [tagsFrom_cons hslash, ih hs, hbracket]
      rfl

theorem tags_of_not_mem {s : String} (h : '[' ∉ s.toList) : tags s = [] := by
  rw [tags, tagsFrom_of_not_mem h, List.map_nil]

/-! ## Texts that are over -/

/-- Whether what stands behind this text can make a tag of a bracket in front of it. -/
def isPending : List Char → Bool
  | [] => true
  | d :: s => isTagStart d && !s.any isBracket

/-- Whether a text is over at its end: it holds no beginning of a tag, and does not end in a
backslash. -/
def isOver : List Char → Bool
  | [] => true
  | c :: s => !(c == '[' && isPending s) && !(c == '\\' && s.isEmpty) && isOver s

theorem isOpened_append {s : List Char} (h : isPending s = false) (rest : List Char) :
    isOpened (s ++ rest) = isOpened s := by
  cases s with
  | nil => cases h
  | cons d s =>
    by_cases hd : isTagStart d = true
    · have hany : s.any isBracket = true := by simpa [isPending, hd] using h
      have hsome : (s.find? isBracket).isSome = true := by
        rw [List.find?_isSome]
        exact List.any_eq_true.mp hany
      obtain ⟨b, hb⟩ := Option.isSome_iff_exists.mp hsome
      have hskip (t : List Char) : (d :: t).find? isBracket = t.find? isBracket :=
        List.find?_cons_of_neg (by simp [isBracket_of_isTagStart hd])
      have hfind : (d :: (s ++ rest)).find? isBracket = (d :: s).find? isBracket := by
        rw [hskip, hskip, List.find?_append, hb]
        rfl
      rw [List.cons_append, isOpened, isOpened, hfind]
      rfl
    · simp [isOpened, hd]

theorem takeWhile_append_of_isOpened {s : List Char} (h : isOpened s = true) (rest : List Char) :
    (s ++ rest).takeWhile (· != ']') = s.takeWhile (· != ']') := by
  have hfind : s.find? isBracket = some ']' := by
    unfold isOpened at h
    simp only [Bool.and_eq_true, beq_iff_eq] at h
    exact h.2
  have hmem : ']' ∈ s := List.mem_of_find?_eq_some hfind
  rw [List.takeWhile_append, if_neg]
  intro hlength
  have hall := List.takeWhile_eq_self_iff.mp
    ((List.takeWhile_sublist (· != ']')).eq_of_length hlength)
  simpa using hall _ hmem

theorem tagsFrom_append {s : List Char} (h : isOver s = true) (rest : List Char) {slashes : Nat}
    (hslashes : s = [] → slashes = 0) :
    tagsFrom slashes (s ++ rest) = tagsFrom slashes s ++ tagsFrom 0 rest := by
  induction s generalizing slashes with
  | nil =>
    rw [hslashes rfl]
    rfl
  | cons c s ih =>
    simp only [isOver, Bool.and_eq_true, Bool.not_eq_true'] at h
    obtain ⟨⟨hbracket, hend⟩, hs⟩ := h
    by_cases hc : c = '\\'
    · subst hc
      have hne : s ≠ [] := by simpa using hend
      rw [List.cons_append, tagsFrom_slash, tagsFrom_slash, ih hs fun e => absurd e hne]
    · rw [List.cons_append, tagsFrom_cons hc, tagsFrom_cons hc, ih hs fun _ => rfl,
        List.append_assoc]
      by_cases hopen : c = '['
      · have hpending : isPending s = false := by simpa [hopen] using hbracket
        rw [isOpened_append hpending]
        cases hopened : isOpened s with
        | false => rw [Bool.and_false, Bool.false_and]; rfl
        | true => rw [takeWhile_append_of_isOpened hopened]
      · have hfalse : (c == '[') = false := by simpa using hopen
        rw [hfalse]
        rfl

/-- Behind a text that is over, tags are read as if it were not there. -/
theorem tags_append {s : String} (h : isOver s.toList = true) (t : String) :
    tags (s ++ t) = tags s ++ tags t := by
  rw [tags, String.toList_append, tagsFrom_append h _ fun _ => rfl, List.map_append]
  rfl

/-! ## Escaped texts -/

/-- A text that can stand behind an escaped one: it brings no end of a tag, and no bracket or
backslash that backslashes could belong to. -/
def isFresh (s : List Char) : Bool :=
  s.head? != some '[' && s.head? != some '\\' && s.find? isBracket != some ']'

theorem find?_replicate_slash (count : Nat) (s : List Char) :
    (List.replicate count '\\' ++ s).find? isBracket = s.find? isBracket := by
  induction count with
  | zero => rfl
  | succ count ih =>
    rw [List.replicate_succ, List.cons_append, List.find?_cons_of_neg (by decide), ih]

theorem escapeFrom_slash (slashes : Nat) (s : List Char) :
    escapeFrom slashes ('\\' :: s) = escapeFrom (slashes + 1) s := rfl

theorem escapeFrom_cons {c : Char} (hc : c ≠ '\\') (slashes : Nat) (s : List Char) :
    escapeFrom slashes (c :: s) =
      List.replicate (if c == '[' && isOpened s then 2 * slashes + 1 else slashes) '\\' ++
        c :: escapeFrom 0 s := by
  have hslash : (c == '\\') = false := by simpa using hc
  rw [escapeFrom, isEmpty_tag, hslash]
  cases c == '[' && isOpened s <;> rfl

/-- Escaping keeps all brackets. -/
theorem find?_escapeFrom (slashes : Nat) (s : List Char) :
    (escapeFrom slashes s).find? isBracket = s.find? isBracket := by
  induction s generalizing slashes with
  | nil =>
    rw [escapeFrom, ← List.append_nil (List.replicate _ _), find?_replicate_slash]
  | cons c s ih =>
    by_cases hc : c = '\\'
    · rw [hc, escapeFrom_slash, ih, List.find?_cons_of_neg (by decide)]
    · rw [escapeFrom_cons hc, find?_replicate_slash, List.find?_cons, List.find?_cons, ih]

theorem head?_escapeFrom_succ (slashes : Nat) (s : List Char) :
    (escapeFrom (slashes + 1) s).head? = some '\\' := by
  induction s generalizing slashes with
  | nil =>
    rw [escapeFrom]
    split <;> rfl
  | cons c s ih =>
    by_cases hc : c = '\\'
    · rw [hc, escapeFrom_slash, ih]
    · rw [escapeFrom_cons hc]
      split <;> rfl

/-- An escaped text begins as the text does, or with a backslash. -/
theorem head?_escapeFrom (c : Char) (s : List Char) :
    (escapeFrom 0 (c :: s)).head? = some c ∨ (escapeFrom 0 (c :: s)).head? = some '\\' := by
  by_cases hc : c = '\\'
  · rw [hc, escapeFrom_slash]
    exact .inr (head?_escapeFrom_succ 0 s)
  · rw [escapeFrom_cons hc]
    split
    · exact .inr rfl
    · exact .inl rfl

/-- A bracket that opens no tag opens none either when what stands behind it is escaped. -/
theorem isOpened_escapeFrom {s rest : List Char} (h : isOpened s = false)
    (hrest : isFresh rest = true) : isOpened (escapeFrom 0 s ++ rest) = false := by
  unfold isFresh at hrest
  simp only [Bool.and_eq_true, bne_iff_ne] at hrest
  rw [isOpened, List.find?_append, find?_escapeFrom]
  cases hfind : s.find? isBracket with
  | none => simp [hrest.2]
  | some b =>
    by_cases hb : b = ']'
    · -- the next bracket closes, so it is the character in front that opens no tag
      subst hb
      cases s with
      | nil => cases hfind
      | cons c s =>
        have hc : isTagStart c = false := by simpa [isOpened, hfind] using h
        have hstart : (escapeFrom 0 (c :: s) ++ rest).head?.any isTagStart = false := by
          rw [List.head?_append]
          rcases head?_escapeFrom c s with hhead | hhead <;> rw [hhead]
          · exact hc
          · rfl
        rw [hstart]
        rfl
    · simp [hb]

theorem tagsFrom_escapeFrom (slashes : Nat) (s : List Char) {rest : List Char}
    (hrest : isFresh rest = true) :
    tagsFrom 0 (escapeFrom slashes s ++ rest) = tagsFrom 0 rest := by
  induction s generalizing slashes with
  | nil =>
    rw [escapeFrom, tagsFrom_replicate]
    unfold isFresh at hrest
    simp only [Bool.and_eq_true, bne_iff_ne] at hrest
    cases rest with
    | nil => rfl
    | cons c rest =>
      have hslash : c ≠ '\\' := fun e => hrest.1.2 (by rw [e]; rfl)
      have hopen : (c == '[') = false := by simpa using fun e => hrest.1.1 (by rw [e]; rfl)
      rw [tagsFrom_cons hslash, tagsFrom_cons hslash, hopen]
      rfl
  | cons c s ih =>
    by_cases hc : c = '\\'
    · rw [hc, escapeFrom_slash, ih]
    · rw [escapeFrom_cons hc, List.append_assoc, tagsFrom_replicate, List.cons_append,
        tagsFrom_cons hc, ih]
      cases hopen : c == '[' with
      | false => rfl
      | true =>
        cases hopened : isOpened s with
        | false =>
          rw [isOpened_escapeFrom hopened hrest]
          rfl
        | true =>
          -- it was a tag before, and the number of backslashes in front of it is odd now
          simp

/-- Whatever an escaped text holds, no tag is read in it, and none that ends behind it. -/
theorem tags_escape_append (text : String) {rest : String} (h : isFresh rest.toList = true) :
    tags (escape text ++ rest) = tags rest := by
  rw [tags, String.toList_append, escape, String.toList_ofList, tagsFrom_escapeFrom 0 _ h]
  rfl

theorem tags_escape (text : String) : tags (escape text) = [] := by
  have h := tags_escape_append text (show isFresh "".toList = true by decide)
  rw [String.append_empty] at h
  exact h

/-! ## Plain text -/

theorem plainFrom_skip (w rest : List Char) :
    plainFrom 0 w.length (w ++ rest) = plainFrom 0 0 rest := by
  induction w with
  | nil => rfl
  | cons c w ih => exact ih

/-- A tag goes to the first closing bracket, and no bracket opens before that. -/
theorem tag_head? {c : Char} {s behind : List Char} (h : (tag (c :: s)).head? = some behind) :
    c = '[' ∧ ∃ w, s = w ++ [']'] ++ behind ∧ '[' ∉ w := by
  have htag : Matches tag [charIn (· == '['), charIn isTagStart, runOf (· != '['),
      charIn (· == ']')].prod :=
    .row (.cons (matches_one _) (.cons (matches_one _) (.cons (matches_fewest _)
      (.cons (matches_one _) .nil))))
  obtain ⟨_, hword, hsplit⟩ := (htag _ _).mp (List.mem_of_mem_head? h)
  simp only [List.prod_cons, List.prod_nil, mul_one] at hword
  obtain ⟨_, hopen, _, ⟨_, ⟨d, hd, rfl⟩, _, ⟨w, hw, _, hclose, rfl⟩, rfl⟩, rfl⟩ := hword
  rw [mem_charIn.mp hopen, mem_charIn.mp hclose] at hsplit
  obtain ⟨hc, hs⟩ := List.cons.inj hsplit
  have hstart : '[' ≠ d := by
    rintro rfl
    exact absurd hd (by decide)
  have hrun : '[' ∉ w := fun hmem => absurd (hw _ hmem) (by decide)
  exact ⟨hc, d :: w, by simpa using hs, by simp [hstart, hrun]⟩

theorem tagsFrom_behind {w : List Char} (h : '[' ∉ w) (slashes : Nat) (rest : List Char) :
    tagsFrom slashes (w ++ [']'] ++ rest) = tagsFrom 0 rest := by
  induction w generalizing slashes with
  | nil => exact tagsFrom_cons (by decide) slashes rest
  | cons c w ih =>
    have hw := List.not_mem_of_not_mem_cons h
    by_cases hslash : c = '\\'
    · rw [hslash]
      exact ih hw (slashes + 1)
    · have hbracket : (c == '[') = false := by simpa using (List.ne_of_not_mem_cons h).symm
      rw [List.cons_append, List.cons_append, tagsFrom_cons hslash, ih hw, hbracket]
      rfl

theorem count_replicate_slash (count : Nat) : (List.replicate count '\\').count '[' = 0 := by
  rw [List.count_replicate]
  rfl

/-- Each opening bracket either opens a tag that is read, or is one of the plain text. -/
theorem count_plainFrom (slashes : Nat) (s : List Char) :
    (plainFrom slashes 0 s).count '[' + (tagsFrom slashes s).length = s.count '[' := by
  induction hlength : s.length using Nat.strong_induction_on generalizing slashes s with
  | _ n ih =>
    cases s with
    | nil => exact count_replicate_slash slashes
    | cons c s =>
      have hshort : s.length < n := by
        rw [← hlength, List.length_cons]
        omega
      by_cases hslash : c = '\\'
      · subst hslash
        rw [List.count_cons_of_ne (by decide)]
        exact ih s.length hshort (slashes + 1) s rfl
      · have hbeq : (c == '\\') = false := by simpa using hslash
        -- a bracket that opens no tag is kept, with some of the backslashes in front of it
        have hkept (count : Nat) :
            (List.replicate count '\\' ++ c :: plainFrom 0 0 s).count '[' +
              (tagsFrom 0 s).length = (c :: s).count '[' := by
          have hs := ih s.length hshort 0 s rfl
          rw [List.count_append, count_replicate_slash, List.count_cons, List.count_cons]
          omega
        rw [plainFrom, tagsFrom, hbeq]
        cases hhead : (tag (c :: s)).head? with
        | none =>
          rw [List.head?_eq_none_iff.mp hhead]
          exact hkept slashes
        | some behind =>
          have hempty : (tag (c :: s)).isEmpty = false := by
            obtain ⟨others, hothers⟩ := List.head?_eq_some_iff.mp hhead
            rw [hothers]
            rfl
          rw [hempty, Bool.false_or]
          by_cases hodd : slashes % 2 = 1
          · simp only [hodd, beq_self_eq_true, if_true]
            exact hkept (slashes / 2)
          · obtain ⟨rfl, w, rfl, hw⟩ := tag_head? hhead
            have hbehind := ih behind.length (by simp at hshort; omega) 0 behind rfl
            have hskip : (w ++ [']'] ++ behind).length - behind.length = (w ++ [']']).length := by
              rw [List.length_append, Nat.add_sub_cancel]
            have heven : (slashes % 2 == 1) = false := beq_eq_false_iff_ne.mpr hodd
            have hnone : w.count '[' = 0 := List.count_eq_zero.mpr hw
            have hcount : ('[' :: (w ++ [']'] ++ behind)).count '[' = behind.count '[' + 1 := by
              rw [List.count_cons_self, List.count_append, List.count_append, hnone,
                List.count_eq_zero.mpr (by decide : '[' ∉ [']'])]
              omega
            simp only [hodd, heven, Bool.false_eq_true, if_false, hskip, plainFrom_skip,
              tagsFrom_behind hw]
            rw [hcount, List.count_append, count_replicate_slash, List.length_cons]
            omega

/-- As many opening brackets are printed as there are brackets that open no tag. -/
theorem count_plain (markup : String) :
    (plain markup).toList.count '[' + (tags markup).length = markup.toList.count '[' := by
  rw [plain, String.toList_ofList, tags, List.length_map, count_plainFrom]

end Assemblage.Markup
