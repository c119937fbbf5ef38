import Assemblage.Yaml.Writer

/-!
# The start of what is written

A pen never takes back what it has written (`Grows`): every way to write leaves the earlier text at
the front. So the first character of a text is decided by its first step, and the text of a mapping
starts with a brace or with the first character of its first key.

Main statement: `Writer.grows_value`.
-/

namespace Assemblage.Yaml
set_option autoImplicit false

namespace Pen

/-- Whether the second pen holds all that the first one has written, and maybe more behind it. -/
def Grows (p q : Pen) : Prop := p.written <:+ q.written

theorem Grows.refl (p : Pen) : Grows p p := List.suffix_refl _

theorem Grows.trans {p q r : Pen} (h : Grows p q) (h' : Grows q r) : Grows p r :=
  List.IsSuffix.trans h h'

theorem grows_put (p : Pen) (s : List Char) : Grows p (p.put s) := List.suffix_append _ _

theorem grows_breakLine (p : Pen) (br : Char) : Grows p (p.breakLine br) := List.suffix_cons _ _

theorem grows_toColumn (p : Pen) (indent : Nat) : Grows p (p.toColumn indent) := by
  have hpad : ∀ q : Pen, Grows q (if q.column < indent then
      { q.put (List.replicate (indent - q.column) ' ') with spaced := true } else q) := by
    intro q
    split
    · exact q.grows_put _
    · exact .refl q
  unfold toColumn
  split
  · exact (p.grows_breakLine '\n').trans (hpad _)
  · exact hpad p

theorem grows_mark (p : Pen) (s : List Char) (opensBlock : Bool) :
    Grows p (p.mark s opensBlock) := p.grows_put _

theorem grows_close (p : Pen) (s : List Char) : Grows p (p.close s) := p.grows_put s

theorem grows_fold (p : Pen) (indent : Nat) : Grows p (p.fold indent) := p.grows_toColumn indent

/-! ## The styles of a text -/

theorem grows_plainWords (split : Bool) (indent : Nat) (p : Pen) (s : List Char) (fuel : Nat) :
    Grows p (plainWords split indent p s fuel) := by
  induction fuel generalizing p s with
  | zero => exact .refl p
  | succ fuel ih =>
    unfold plainWords
    split
    · exact .refl p
    · dsimp only
      split
      · exact (p.grows_fold indent).trans (ih _ _)
      · exact (p.grows_put _).trans (ih _ _)
    · exact (p.grows_put _).trans (ih _ _)

theorem grows_plain (p : Pen) (split : Bool) (indent : Nat) (s : List Char) :
    Grows p (p.plain split indent s) := by
  have hspace : Grows p (if p.spaced then p else p.put [' ']) := by
    split
    · exact .refl p
    · exact p.grows_put _
  have hwords := grows_plainWords split indent
    { (if p.spaced then p else p.put [' ']) with spaced := false, fresh := false } s (s.length + 1)
  exact List.IsSuffix.trans hspace hwords

theorem grows_foldl_breakLine (breaks : List Char) (p : Pen) :
    Grows p (breaks.foldl breakLine p) := by
  induction breaks generalizing p with
  | nil => exact .refl p
  | cons br breaks ih => exact (p.grows_breakLine br).trans (ih _)

theorem grows_singleParts (split : Bool) (indent : Nat) (first : Bool) (p : Pen) (s : List Char)
    (fuel : Nat) : Grows p (singleParts split indent first p s fuel) := by
  induction fuel generalizing first p s with
  | zero => exact .refl p
  | succ fuel ih =>
    unfold singleParts
    split
    · exact .refl p
    · dsimp only
      split
      · exact (p.grows_toColumn indent).trans (ih _ _ _)
      · exact (p.grows_put _).trans (ih _ _ _)
    · exact ((grows_foldl_breakLine _ p).trans (grows_toColumn _ indent)).trans (ih _ _ _)
    · exact (p.grows_put _).trans (ih _ _ _)
    · exact (p.grows_put _).trans (ih _ _ _)

theorem grows_single (p : Pen) (split : Bool) (indent : Nat) (s : List Char) :
    Grows p (p.single split indent s) :=
  ((p.grows_mark _ _).trans (grows_singleParts split indent true _ s _)).trans (grows_close _ _)

theorem grows_foldEscaped (p : Pen) (indent : Nat) (next : Option RawChar) :
    Grows p (p.foldEscaped indent next) := by
  have hfold := (p.grows_put ['\\']).trans (grows_fold _ indent)
  unfold foldEscaped
  split
  · exact hfold.trans (grows_put _ _)
  · exact hfold

theorem grows_doubleParts (split : Bool) (indent : Nat) (t : RawText) (p : Pen)
    (pending : List Char) (first : Bool) :
    Grows p (doubleParts split indent p pending first t) := by
  induction t generalizing p pending first with
  | nil => exact p.grows_put _
  | cons r rest ih =>
    unfold doubleParts
    split
    · next escape _ =>
      have hescape := (p.grows_put pending.reverse).trans (grows_put _ escape)
      refine Grows.trans ?_ (ih _ _ _)
      split
      · exact hescape.trans (grows_foldEscaped _ indent _)
      · exact hescape
    · dsimp only
      split
      · exact ((p.grows_put _).trans (grows_foldEscaped _ indent _)).trans (ih _ _ _)
      · exact ih _ _ _
    · exact ih _ _ _

theorem grows_double (p : Pen) (split : Bool) (indent : Nat) (t : RawText) :
    Grows p (p.double split indent t) :=
  ((p.grows_mark _ _).trans (grows_doubleParts split indent t _ _ _)).trans (grows_close _ _)

end Pen

/-! ## Values -/

namespace Writer
open Pen

theorem grows_text (p : Pen) (simpleKey : Bool) (indent : Nat) (t : RawText) :
    Grows p (text p simpleKey indent t) := by
  unfold text
  dsimp only
  split
  · exact p.grows_plain _ _ _
  · split
    · exact p.grows_single _ _ _
    · exact p.grows_double _ _ _

theorem grows_scalar (p : Pen) (simpleKey : Bool) (indent : Nat) (v : Value) :
    Grows p (scalar p simpleKey indent v) := by
  unfold scalar
  split
  · exact grows_text p _ _ _
  · exact p.grows_plain _ _ _

theorem grows_key (p : Pen) (indent : Nat) (v : Value) : Grows p (key p indent v) := by
  have hkey : ∀ simple : Bool, Grows p
      (if simple then (scalar p true (indent + 2) v).close [':']
      else
        ((scalar (p.mark ['?'] true) false (indent + 2) v).toColumn indent).mark [':'] true) := by
    intro simple
    cases simple with
    | true => exact (grows_scalar p _ _ _).trans (grows_close _ _)
    | false =>
      exact (((p.grows_mark _ _).trans (grows_scalar _ _ _ _)).trans
        (grows_toColumn _ _)).trans (grows_mark _ _ _)
  exact hkey _

mutual

/-- **Writing a value keeps what is written.** -/
theorem grows_value (outer : Option Nat) (inMapping : Bool) (p : Pen) :
    ∀ v : Value, Grows p (value outer inMapping p v)
  | .list [] | .tuple [] | .set [] | .cycle | .mapping [] =>
    (p.grows_mark _ _).trans (grows_close _ _)
  | .list (x :: xs) | .tuple (x :: xs) | .set (x :: xs) => grows_items _ p (x :: xs)
  | .mapping (e :: es) => grows_entries _ p (e :: es)
  | .null | .flag _ | .integer _ | .real _ | .text _ | .bytes _ | .date _ | .moment _ =>
    grows_scalar p _ _ _

theorem grows_items (indent : Nat) (p : Pen) : ∀ xs : List Value, Grows p (items indent p xs)
  | [] => .refl p
  | x :: xs =>
    (((p.grows_toColumn indent).trans (grows_mark _ _ _)).trans (grows_value _ _ _ x)).trans
      (grows_items indent _ xs)

theorem grows_entries (indent : Nat) (p : Pen) :
    ∀ es : List (Value × Value), Grows p (entries indent p es)
  | [] => .refl p
  | (k, v) :: es =>
    (((p.grows_toColumn indent).trans (grows_key _ _ k)).trans (grows_value _ _ _ v)).trans
      (grows_entries indent _ es)

end

end Writer

/-! ## The first character -/

theorem head?_write {v : Value} {c : Char} {q : Pen}
    (h : q.Grows (Writer.value none false .start v)) (hq : q.written.getLast? = some c) :
    (write v).head? = some c := by
  obtain ⟨more, hmore⟩ := h.trans (Pen.grows_toColumn _ 0)
  rw [write, List.head?_reverse, ← hmore, List.getLast?_append, hq, Option.some_or]

theorem head?_write_empty : (write (.mapping [])).head? = some '\x7b' := by
  decide +kernel

/-- The text of a mapping starts like its first key. -/
theorem head?_write_mapping {k v : Value} {es : List (Value × Value)} {c : Char}
    (h : (Writer.key (Pen.start.toColumn 0) 0 k).written.getLast? = some c) :
    (write (.mapping ((k, v) :: es))).head? = some c :=
  head?_write ((Writer.grows_value _ _ _ v).trans (Writer.grows_entries 0 _ es)) h

end Assemblage.Yaml
