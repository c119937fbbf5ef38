import Assemblage.Json.Reader
import Assemblage.Proofs.Binary64.Rounding
import Assemblage.Proofs.Text.Lines

/-!
# Numbers read back

An integer of 64 bits is read back from its digits (`number?_integer`), and a finite real number
from whatever a layout writes for it (`number?_write`). Every form of a real number is some digits
with a point, an exponent or both (`Writes`), and its value is that of the shortest decimal.
-/

namespace Assemblage.Json
set_option autoImplicit false
open Assemblage.Text

/-! ## The parts of a number -/

/-- A text in front of which a number ends. -/
def Stops (rest : List Char) : Prop :=
  ∀ c ∈ rest.head?, isDecimal c = false ∧ c ≠ '.' ∧ c ≠ 'e' ∧ c ≠ 'E'

/-- A text that does not start with a digit. -/
def NoDigit (rest : List Char) : Prop := ∀ c ∈ rest.head?, isDecimal c = false

theorem noDigit_cons {c : Char} (rest : List Char) (h : isDecimal c = false) :
    NoDigit (c :: rest) := by
  intro d hd
  obtain rfl : c = d := by simpa using hd
  exact h

theorem Stops.noDigit {rest : List Char} (h : Stops rest) : NoDigit rest :=
  fun c hc => (h c hc).1

theorem isDecimal_digits {n : Nat} : ∀ c ∈ Nat.toDigits 10 n, isDecimal c = true :=
  fun _ hc => isDecimal_of_mem_toDigits hc

theorem cutWhole_zero (rest : List Char) : cutWhole ('0' :: rest) = some (['0'], rest) :=
  rfl

theorem cutWhole_digits {c : Char} {digits rest : List Char} (hc : c ≠ '0')
    (hdigits : ∀ d ∈ c :: digits, isDecimal d = true) (hrest : NoDigit rest) :
    cutWhole (c :: digits ++ rest) = some (c :: digits, rest) := by
  have htake := takeWhile_append_stop hdigits hrest
  unfold cutWhole
  split
  · next h => exact absurd (List.cons.inj h).1 hc
  · simp only [htake, List.drop_left]
    rfl

theorem cutFraction_digits {digits rest : List Char} (hne : digits ≠ [])
    (hdigits : ∀ d ∈ digits, isDecimal d = true) (hrest : NoDigit rest) :
    cutFraction ('.' :: digits ++ rest) = some (some digits, rest) := by
  have htake := takeWhile_append_stop hdigits hrest
  simp only [List.cons_append, cutFraction, htake, List.drop_left]
  simp [hne]

theorem cutFraction_none {rest : List Char} (h : rest.head? ≠ some '.') :
    cutFraction rest = some (none, rest) := by
  unfold cutFraction
  split
  · exact absurd rfl h
  · rfl

theorem cutExponent_digits {digits rest : List Char} (negative : Bool) (hne : digits ≠ [])
    (hdigits : ∀ d ∈ digits, isDecimal d = true) (hrest : NoDigit rest) :
    cutExponent ('e' :: (if negative then '-' else '+') :: digits ++ rest) =
      some (some (if negative then -(Stamp.decimal digits : Int) else Stamp.decimal digits),
        rest) := by
  have htake := takeWhile_append_stop hdigits hrest
  cases negative with
  | true => simp [cutExponent, htake, hne]
  | false => simp [cutExponent, htake, hne]

theorem cutExponent_none {rest : List Char} (h : Stops rest) :
    cutExponent rest = some (none, rest) := by
  cases rest with
  | nil => rfl
  | cons c rest =>
    obtain ⟨-, -, he, hE⟩ := h c rfl
    simp [cutExponent, he, hE]

/-! ## A number from its parts -/

/-- The minus of a negative number. -/
def sign (negative : Bool) : List Char := if negative then ['-'] else []

theorem number?_sign {limits : Limits} {negative : Bool} {c : Char} {s : List Char}
    (hc : isDecimal c = true) :
    number? limits (sign negative ++ c :: s) = unsigned? limits negative (c :: s) := by
  cases negative with
  | true => rfl
  | false =>
    have hne : c ≠ '-' := by
      rintro rfl
      exact absurd hc (by decide)
    show number? limits (c :: s) = unsigned? limits false (c :: s)
    unfold number?
    split
    · next h => exact absurd (List.cons.inj h).1 hne
    · rfl

section
variable {limits : Limits} {negative : Bool} {c : Char} {s s₁ s₂ rest whole : List Char}
  (hc : isDecimal c = true) (hwhole : cutWhole (c :: s) = some (whole, s₁))
include hc hwhole

theorem number?_whole (hfraction : cutFraction s₁ = some (none, s₂))
    (hexponent : cutExponent s₂ = some (none, rest))
    (hnarrow : isNarrow (if negative then -(Stamp.decimal whole : Int)
      else Stamp.decimal whole) = true) :
    number? limits (sign negative ++ c :: s) =
      some (.integer (if negative then -(Stamp.decimal whole : Int)
        else Stamp.decimal whole), rest) := by
  rw [number?_sign hc, unsigned?]
  simp only [hwhole, hfraction, hexponent, Option.bind_eq_bind, Option.bind_some, Option.getD_none,
    List.append_nil, hnarrow, Bool.or_true, if_true]
  rfl

theorem number?_real {fraction : Option (List Char)} {exponent : Option Int} {x : Binary64}
    (hfraction : cutFraction s₁ = some (fraction, s₂))
    (hexponent : cutExponent s₂ = some (exponent, rest))
    (hreal : fraction.isSome ∨ exponent.isSome)
    (hvalue : Binary64.ofDecimal negative (Stamp.decimal (whole ++ fraction.getD []))
      (exponent.getD 0 - ((fraction.getD []).length : Int)) = x)
    (hfinite : x.isFinite = true) :
    number? limits (sign negative ++ c :: s) = some (.real x, rest) := by
  rw [number?_sign hc, unsigned?]
  simp only [hwhole, hfraction, hexponent, Option.bind_eq_bind, Option.bind_some]
  split
  · simp at hreal
  · rw [hvalue, finite?, if_pos hfinite]
    rfl

end

/-! ## Texts that are read as a decimal -/

/-- A text that is read as this decimal, whatever the sign in front of it and whatever follows. -/
def Writes (s : List Char) (digits : Nat) (e : Int) : Prop :=
  ∀ (limits : Limits) (negative : Bool) (rest : List Char) (x : Binary64), Stops rest →
    Binary64.ofDecimal negative digits e = x → x.isFinite = true →
    number? limits (sign negative ++ (s ++ rest)) = some (.real x, rest)

/-- A zero, or digits that do not start with one. -/
def IsWhole (whole : List Char) : Prop :=
  whole = ['0'] ∨ ∃ c digits, whole = c :: digits ∧ c ≠ '0' ∧ ∀ d ∈ whole, isDecimal d = true

def IsDigits (digits : List Char) : Prop := digits ≠ [] ∧ ∀ d ∈ digits, isDecimal d = true

theorem isDigits_zero : IsDigits ['0'] := by
  refine ⟨by simp, ?_⟩
  intro d hd
  rw [List.mem_singleton.mp hd]
  rfl

theorem IsWhole.head {whole : List Char} (h : IsWhole whole) :
    ∃ c digits, whole = c :: digits ∧ isDecimal c = true := by
  rcases h with rfl | ⟨c, digits, rfl, -, hdigits⟩
  · exact ⟨'0', [], rfl, rfl⟩
  · exact ⟨c, digits, rfl, hdigits c List.mem_cons_self⟩

theorem IsWhole.cutWhole_append {whole rest : List Char} (h : IsWhole whole)
    (hrest : NoDigit rest) : cutWhole (whole ++ rest) = some (whole, rest) := by
  rcases h with rfl | ⟨c, digits, rfl, hc, hdigits⟩
  · exact cutWhole_zero rest
  · exact cutWhole_digits hc hdigits hrest

/-- Digits with a fraction behind them. -/
theorem writes_fraction {whole fraction : List Char} (hw : IsWhole whole)
    (hf : IsDigits fraction) :
    Writes (whole ++ '.' :: fraction) (Stamp.decimal (whole ++ fraction)) (-(fraction.length)) := by
  intro limits negative rest x hrest hx hfinite
  obtain ⟨c, digits, rfl, hc⟩ := hw.head
  have hwhole := hw.cutWhole_append (noDigit_cons (fraction ++ rest) (c := '.') (by decide))
  have hfraction := cutFraction_digits hf.1 hf.2 hrest.noDigit
  have hvalue : Binary64.ofDecimal negative (Stamp.decimal (c :: digits ++ fraction))
      (0 - (fraction.length : Int)) = x := by
    rw [zero_sub]
    exact hx
  rw [List.append_assoc]
  exact number?_real hc hwhole hfraction (cutExponent_none hrest) (.inl rfl) hvalue hfinite

/-- Digits with an exponent behind them. -/
theorem writes_exponent {whole digits : List Char} (hw : IsWhole whole) (hd : IsDigits digits)
    (negativePower : Bool) :
    Writes (whole ++ 'e' :: (if negativePower then '-' else '+') :: digits) (Stamp.decimal whole)
      (if negativePower then -(Stamp.decimal digits : Int) else Stamp.decimal digits) := by
  intro limits negative rest x hrest hx hfinite
  obtain ⟨c, tail, rfl, hc⟩ := hw.head
  have hwhole := hw.cutWhole_append (noDigit_cons
    ((if negativePower then '-' else '+') :: digits ++ rest) (c := 'e') (by decide))
  have hexponent := cutExponent_digits negativePower hd.1 hd.2 hrest.noDigit
  rw [List.append_assoc]
  refine number?_real hc hwhole (cutFraction_none (by simp)) hexponent (.inr rfl) ?_ hfinite
  simpa using hx

/-- Digits with a fraction and an exponent behind them. -/
theorem writes_both {whole fraction digits : List Char} (hw : IsWhole whole)
    (hf : IsDigits fraction) (hd : IsDigits digits) (negativePower : Bool) :
    Writes (whole ++ '.' :: (fraction ++ 'e' :: (if negativePower then '-' else '+') :: digits))
      (Stamp.decimal (whole ++ fraction))
      ((if negativePower then -(Stamp.decimal digits : Int) else Stamp.decimal digits) -
        (fraction.length : Int)) := by
  intro limits negative rest x hrest hx hfinite
  obtain ⟨c, tail, rfl, hc⟩ := hw.head
  have hexponent := cutExponent_digits negativePower hd.1 hd.2 hrest.noDigit
  have hfraction := cutFraction_digits hf.1 hf.2 (noDigit_cons
    ((if negativePower then '-' else '+') :: digits ++ rest) (c := 'e') (by decide))
  have hwhole := hw.cutWhole_append (noDigit_cons
    (fraction ++ 'e' :: (if negativePower then '-' else '+') :: digits ++ rest) (c := '.')
    (by decide))
  have htext : c :: tail ++
      '.' :: (fraction ++ 'e' :: (if negativePower then '-' else '+') :: digits) ++ rest =
      c :: tail ++ ('.' :: fraction ++
        ('e' :: (if negativePower then '-' else '+') :: digits ++ rest)) := by
    simp only [List.append_assoc, List.cons_append]
  rw [htext]
  exact number?_real hc (by simpa using hwhole) hfraction hexponent (.inl rfl) hx hfinite

theorem Writes.of_scaled {s : List Char} {digits k : Nat} {e : Int} (h : digits ≠ 0)
    (hs : Writes s (digits * 10 ^ k) e) : Writes s digits (e + k) := by
  intro limits negative rest x hrest hx hfinite
  rw [← ofDecimal_scale negative h] at hx
  exact hs limits negative rest x hrest hx hfinite

/-! ## Layouts -/

theorem isDecimal_zeros {k : Nat} : ∀ c ∈ List.replicate k '0', isDecimal c = true := by
  intro c hc
  rw [List.eq_of_mem_replicate hc]
  decide

theorem isDigits_zeros_append (k n : Nat) :
    IsDigits (List.replicate k '0' ++ Nat.toDigits 10 n) := by
  refine ⟨fun h => Nat.toDigits_ne_nil (List.append_eq_nil_iff.mp h).2, ?_⟩
  intro c hc
  rcases List.mem_append.mp hc with hc | hc
  · exact isDecimal_zeros c hc
  · exact isDecimal_digits c hc

theorem isDigits_padded (width n : Nat) : IsDigits (padded width n) :=
  isDigits_zeros_append _ n

theorem decimal_padded (width n : Nat) : Stamp.decimal (padded width n) = n := by
  unfold padded
  rw [decimal_zeros_append, decimal_toDigits]

/-- The front of the digits of a number other than zero is a whole part. -/
theorem isWhole_of_front {n : Nat} (hn : n ≠ 0) {whole : List Char} (hne : whole ≠ [])
    (hw : whole <+: Nat.toDigits 10 n) : IsWhole whole := by
  obtain ⟨c, digits, hdigits, hc⟩ := toDigits_head hn
  obtain ⟨d, tail, rfl⟩ := List.exists_cons_of_ne_nil hne
  rw [hdigits] at hw
  obtain ⟨rfl, -⟩ := List.cons_prefix_cons.mp hw
  rw [← hdigits] at hw
  exact .inr ⟨d, tail, rfl, hc, fun e he => isDecimal_digits e (hw.subset he)⟩

theorem IsWhole.append {whole digits : List Char} (hw : IsWhole whole) (h0 : whole ≠ ['0'])
    (hd : ∀ c ∈ digits, isDecimal c = true) : IsWhole (whole ++ digits) := by
  rcases hw with hw | ⟨c, tail, rfl, hc, htail⟩
  · exact absurd hw h0
  · refine .inr ⟨c, tail ++ digits, rfl, hc, ?_⟩
    intro d hmem
    rcases List.mem_append.mp hmem with hmem | hmem
    · exact htail d hmem
    · exact hd d hmem

theorem toDigits_ne_zero {n : Nat} (hn : n ≠ 0) : Nat.toDigits 10 n ≠ ['0'] := by
  obtain ⟨c, digits, hdigits, hc⟩ := toDigits_head hn
  rw [hdigits]
  intro h
  exact hc (List.cons.inj h).1

theorem signed_natAbs (n : Int) :
    (if decide (n < 0) then -(n.natAbs : Int) else (n.natAbs : Int)) = n := by
  by_cases hneg : n < 0
  · simp only [hneg, decide_true, if_true]
    omega
  · simp only [hneg, decide_false, Bool.false_eq_true, if_false]
    omega

/-- Digits behind a point and zeros. -/
theorem writes_behind_zeros (n k : Nat) :
    Writes ('0' :: '.' :: (List.replicate k '0' ++ Nat.toDigits 10 n)) n
      (-((k + (Nat.toDigits 10 n).length : Nat) : Int)) := by
  have hvalue : Stamp.decimal (['0'] ++ (List.replicate k '0' ++ Nat.toDigits 10 n)) = n := by
    rw [← List.replicate_one, decimal_zeros_append, decimal_zeros_append, decimal_toDigits]
  have hwrites := writes_fraction (.inl rfl) (isDigits_zeros_append k n)
  rw [hvalue, List.length_append, List.length_replicate] at hwrites
  exact hwrites

section
variable {n : Nat} (hn : n ≠ 0)
include hn

/-- Digits and zeros in front of a point. -/
theorem writes_before_zeros (k : Nat) :
    Writes (Nat.toDigits 10 n ++ List.replicate k '0' ++ ['.', '0']) n k := by
  have hwhole := isWhole_of_front hn Nat.toDigits_ne_nil List.prefix_rfl
  have hlong := hwhole.append (toDigits_ne_zero hn) (isDecimal_zeros (k := k))
  have hvalue : Stamp.decimal (Nat.toDigits 10 n ++ List.replicate k '0' ++ ['0']) =
      n * 10 ^ (k + 1) := by
    rw [List.append_assoc, ← List.replicate_succ', decimal_append_zeros, decimal_toDigits]
  have hwrites := writes_fraction hlong isDigits_zero
  rw [hvalue] at hwrites
  have hscaled := hwrites.of_scaled hn
  have hexponent : -((['0'] : List Char).length : Int) + ((k + 1 : Nat) : Int) = k := by
    rw [List.length_singleton]
    omega
  rw [hexponent] at hscaled
  exact hscaled

/-- A point between digits. -/
theorem writes_point {i : Nat} (hpos : 0 < i) (hi : i < (Nat.toDigits 10 n).length) :
    Writes ((Nat.toDigits 10 n).take i ++ '.' :: (Nat.toDigits 10 n).drop i) n
      (i - (Nat.toDigits 10 n).length) := by
  have htake : (Nat.toDigits 10 n).take i ≠ [] := by
    rw [← List.length_pos_iff, List.length_take]
    omega
  have hdrop : IsDigits ((Nat.toDigits 10 n).drop i) := by
    refine ⟨?_, fun c hc => isDecimal_digits c (List.mem_of_mem_drop hc)⟩
    rw [← List.length_pos_iff, List.length_drop]
    omega
  have hwrites := writes_fraction (isWhole_of_front hn htake (List.take_prefix _ _)) hdrop
  have hexponent : -(((Nat.toDigits 10 n).drop i).length : Int) =
      i - (Nat.toDigits 10 n).length := by
    rw [List.length_drop]
    omega
  rw [List.take_append_drop, decimal_toDigits, hexponent] at hwrites
  exact hwrites

/-- A decimal that is laid out positionally is read with its digits and their power of ten. -/
theorem writes_positional (power : Int) :
    Writes (Layout.positional (Nat.toDigits 10 n) power) n
      (power + 1 - (Nat.toDigits 10 n).length) := by
  unfold Layout.positional
  split
  · next hneg =>
    have hexponent : power + 1 - ((Nat.toDigits 10 n).length : Int) =
        -(((-power - 1).toNat + (Nat.toDigits 10 n).length : Nat) : Int) := by
      omega
    rw [hexponent]
    exact writes_behind_zeros n _
  next hnonneg =>
  simp only
  split
  · next hle =>
    have hexponent : power + 1 - ((Nat.toDigits 10 n).length : Int) =
        ((power.toNat + 1 - (Nat.toDigits 10 n).length : Nat) : Int) := by
      omega
    rw [hexponent]
    exact writes_before_zeros hn _
  · next hlt =>
    have hexponent : power + 1 - ((Nat.toDigits 10 n).length : Int) =
        ((power.toNat + 1 : Nat) : Int) - (Nat.toDigits 10 n).length := by
      omega
    rw [hexponent]
    exact writes_point hn (Nat.succ_pos _) (by omega)

/-- A single digit gets a point only from a layout that always writes one. -/
theorem writes_withExponent (l : Layout) (power : Int) :
    Writes (l.withExponent (Nat.toDigits 10 n) power) n
      (power + 1 - (Nat.toDigits 10 n).length) := by
  have hpadded := isDigits_padded l.exponentWidth power.natAbs
  have hwhole := isWhole_of_front hn Nat.toDigits_ne_nil List.prefix_rfl
  unfold Layout.withExponent
  cases hshape : Nat.toDigits 10 n with
  | nil => exact absurd hshape Nat.toDigits_ne_nil
  | cons d rest =>
    cases rest with
    | nil =>
      rw [hshape] at hwhole
      by_cases hpoint : l.pointAlways = true
      · have hvalue : Stamp.decimal ([d] ++ ['0']) = n * 10 ^ 1 := by
          rw [← List.replicate_one (a := '0'), decimal_append_zeros, ← hshape, decimal_toDigits]
        have hwrites := writes_both hwhole isDigits_zero hpadded (decide (power < 0))
        rw [hvalue, decimal_padded, signed_natAbs] at hwrites
        have hscaled := hwrites.of_scaled hn
        simpa [hpoint] using hscaled
      · have hwrites := writes_exponent hwhole hpadded (decide (power < 0))
        rw [← hshape, decimal_toDigits, decimal_padded, signed_natAbs, hshape] at hwrites
        simpa [hpoint] using hwrites
    | cons e rest =>
      have hd : IsWhole [d] := isWhole_of_front hn (by simp) (by rw [hshape]; simp)
      have he : IsDigits (e :: rest) := by
        refine ⟨by simp, ?_⟩
        intro c hc
        exact isDecimal_digits c (by rw [hshape]; exact List.mem_cons_of_mem _ hc)
      have hvalue : Stamp.decimal ([d] ++ e :: rest) = n := by
        rw [List.singleton_append, ← hshape, decimal_toDigits]
      have hwrites := writes_both hd he hpadded (decide (power < 0))
      rw [hvalue, decimal_padded, signed_natAbs] at hwrites
      simpa using hwrites

end

/-! ## The main statements -/

/-- The digits and the power of ten that are laid out are those of the decimal. -/
theorem scientific_eq {d : Decimal} (h : d.digits ≠ 0) :
    ∃ n k : Nat, n ≠ 0 ∧ d.digits = n * 10 ^ k ∧
      d.scientific = (Nat.toDigits 10 n, d.exponent + k + (Nat.toDigits 10 n).length - 1) := by
  obtain ⟨n, k, hn, hdigits, hwritten, hstripped⟩ := exists_toDigits_eq h
  refine ⟨n, k, hn, hdigits, ?_⟩
  have hsignificant : ((Nat.toDigits 10 d.digits).reverse.dropWhile (· == '0')).reverse =
      Nat.toDigits 10 n := hstripped
  unfold Decimal.scientific
  simp only [hsignificant]
  rw [if_neg (by simp), hwritten, List.length_append, List.length_replicate]
  congr 1
  omega

/-- **A finite number is read back from what a layout writes for it.** -/
theorem number?_write (l : Layout) (limits : Limits) (negative : Bool) (m : Magnitude)
    {rest : List Char} (hrest : Stops rest) :
    number? limits (l.write (.finite negative m) ++ rest) =
      some (.real (.finite negative m), rest) := by
  have hwrite : l.write (.finite negative m) = sign negative ++ l.magnitude m := rfl
  rw [hwrite, List.append_assoc]
  unfold Layout.magnitude
  by_cases hz : m.mantissa = 0
  · have hwrites := writes_fraction (.inl rfl) isDigits_zero
    have hvalue : Binary64.ofDecimal negative (Stamp.decimal (['0'] ++ ['0']))
        (-((['0'] : List Char).length : Int)) = .finite negative m := by
      rw [eq_zero_of_mantissa hz]
      exact ofDecimal_zero negative _
    rw [if_pos hz]
    exact hwrites limits negative rest _ hrest hvalue rfl
  · have hreads := readsAs_shortest hz
    obtain ⟨n, k, hn, hdigits, hscientific⟩ :=
      scientific_eq (digits_ne_zero_of_readsAs hz hreads)
    rw [Decimal.readsAs, beq_iff_eq] at hreads
    have hvalue := ofDecimal_sign hreads negative
    rw [hdigits, ofDecimal_scale negative hn] at hvalue
    have hexponent : (Decimal.shortest m).exponent + k =
        (Decimal.shortest m).exponent + k + (Nat.toDigits 10 n).length - 1 + 1 -
          (Nat.toDigits 10 n).length := by
      omega
    rw [hexponent] at hvalue
    rw [if_neg hz, hscientific]
    simp only
    split
    · exact writes_positional hn _ limits negative rest _ hrest hvalue rfl
    · exact writes_withExponent hn l _ limits negative rest _ hrest hvalue rfl

theorem toList_toString (n : Int) :
    (toString n).toList = sign (decide (n < 0)) ++ Nat.toDigits 10 n.natAbs := by
  cases n with
  | ofNat n =>
    show (toString n).toList = _
    rw [Nat.toString_eq_ofList_toDigits]
    simp [sign]
  | negSucc n =>
    show ("-" ++ Nat.repr (n + 1)).toList = _
    simp [sign, Int.negSucc_lt_zero]

/-- **An integer of 64 bits is read back from its digits.** -/
theorem number?_integer (limits : Limits) {n : Int} (hn : isNarrow n = true) {rest : List Char}
    (hrest : Stops rest) :
    number? limits ((toString n).toList ++ rest) = some (.integer n, rest) := by
  have hwhole : IsWhole (Nat.toDigits 10 n.natAbs) := by
    by_cases hz : n.natAbs = 0
    · rw [hz]
      exact .inl rfl
    · exact isWhole_of_front hz Nat.toDigits_ne_nil List.prefix_rfl
  have hvalue : (if decide (n < 0) then -(Stamp.decimal (Nat.toDigits 10 n.natAbs) : Int)
      else Stamp.decimal (Nat.toDigits 10 n.natAbs)) = n := by
    rw [decimal_toDigits, signed_natAbs]
  obtain ⟨c, tail, hshape, hc⟩ := hwhole.head
  have hcut := hwhole.cutWhole_append hrest.noDigit
  rw [toList_toString, List.append_assoc, hshape, List.cons_append]
  rw [hshape] at hcut hvalue
  have hpoint : rest.head? ≠ some '.' := by
    intro h
    exact (hrest '.' h).2.1 rfl
  refine (number?_whole hc hcut (cutFraction_none hpoint) (cutExponent_none hrest) ?_).trans ?_
  · rw [hvalue]
    exact hn
  · rw [hvalue]

end Assemblage.Json
