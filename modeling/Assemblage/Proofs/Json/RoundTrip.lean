import Assemblage.Proofs.Json.Arrangement
import Assemblage.Proofs.Json.Number
import Assemblage.Proofs.Json.Text
import Assemblage.World.Safety

/-!
# Values read back

The text of a value that a payload can carry is read back as that value with its mappings sorted by
their keys, if no key stands twice in a mapping and the collections are not nested deeper than the
reader allows.

`ReadsBack v s` says this of a value and its text for whatever follows the text. It holds of the
atoms, and of a list or a mapping as soon as it holds of what is inside (`readsBack_list`,
`readsBack_mapping`); so it holds of every value (`readsBack_of_write?`). The fuel of the reader is
twice the length of the text: one step for a value and one for its place in a collection.

Main statement: `read?_write?`.
-/

namespace Assemblage.Json
set_option autoImplicit false
open Assemblage.Text

/-! ## Starting to read -/

theorem skipSpace_cons {c : Char} (h : isSpace c = false) (rest : List Char) :
    skipSpace (c :: rest) = c :: rest :=
  List.dropWhile_cons_of_neg (by simp [h])

/-- A minus or a digit. -/
def StartsNumber (c : Char) : Prop := c = '-' ∨ isDecimal c = true

theorem StartsNumber.ne {c d : Char} (hc : StartsNumber c) (hminus : d ≠ '-')
    (hd : isDecimal d = false) : c ≠ d := by
  rintro rfl
  rcases hc with h | h
  · exact hminus h
  · rw [hd] at h
    cases h

theorem StartsNumber.isSpace {c : Char} (hc : StartsNumber c) : isSpace c = false := by
  have hspace := hc.ne (d := ' ') (by decide) (by decide)
  have htab := hc.ne (d := '\t') (by decide) (by decide)
  have hfeed := hc.ne (d := '\n') (by decide) (by decide)
  have hreturn := hc.ne (d := '\r') (by decide) (by decide)
  simp [Json.isSpace, hspace, htab, hfeed, hreturn]

section
variable {limits : Limits} {depth : Nat}

theorem value?_list_nil (rest : List Char) (fuel : Nat) :
    value? limits (depth + 1) ('[' :: ']' :: rest) (fuel + 1) = some (.list [], rest) :=
  rfl

theorem value?_list {c : Char} (hspace : isSpace c = false) (hclose : c ≠ ']') (s : List Char)
    (fuel : Nat) :
    value? limits (depth + 1) ('[' :: c :: s) (fuel + 1) =
      (items? limits depth (c :: s) fuel).map fun read => (.list read.1, read.2) := by
  rw [value?, skipSpace_cons (by decide)]
  simp only [skipSpace_cons hspace]
  rw [if_neg (Nat.succ_ne_zero depth)]
  split
  · next h => exact absurd (List.cons.inj h).1 hclose
  · rw [Nat.add_sub_cancel]
    cases items? limits depth (c :: s) fuel <;> rfl

theorem value?_mapping_nil (rest : List Char) (fuel : Nat) :
    value? limits (depth + 1) ('\x7b' :: '\x7d' :: rest) (fuel + 1) = some (.mapping [], rest) :=
  rfl

theorem value?_mapping (s : List Char) (fuel : Nat) :
    value? limits (depth + 1) ('\x7b' :: '"' :: s) (fuel + 1) =
      (entries? limits depth ('"' :: s) fuel).map fun read => (.ofEntries read.1, read.2) := by
  rw [value?, skipSpace_cons (by decide)]
  simp only [skipSpace_cons (show isSpace '"' = false by decide)]
  rw [if_neg (Nat.succ_ne_zero depth)]
  cases h : entries? limits depth ('"' :: s) fuel <;> simp [h]

theorem value?_number {c : Char} (hc : StartsNumber c) (s : List Char) (fuel : Nat) :
    value? limits depth (c :: s) (fuel + 1) = number? limits (c :: s) := by
  rw [value?, skipSpace_cons hc.isSpace]
  split
  · next h => cases h
  -- each of the six characters that start another value
  iterate 6
    next h => exact absurd (List.cons.inj h).1 (hc.ne (by decide) (by decide))
  · rfl

theorem items?_last {s rest : List Char} {v : Value} {fuel : Nat}
    (h : value? limits depth s fuel = some (v, ']' :: rest)) :
    items? limits depth s (fuel + 1) = some ([v], rest) := by
  rw [items?, h]
  rfl

theorem items?_more {s rest : List Char} {v : Value} {fuel : Nat}
    (h : value? limits depth s fuel = some (v, ',' :: rest)) :
    items? limits depth s (fuel + 1) =
      (items? limits depth rest fuel).map fun read => (v :: read.1, read.2) := by
  rw [items?, h]
  show (items? limits depth rest fuel).bind _ = _
  cases items? limits depth rest fuel <;> rfl

theorem entries?_last {s value rest : List Char} {t : RawText} {v : Value} {fuel : Nat}
    (ht : text? limits s (s.length + 1) = some (t, ':' :: value))
    (hv : value? limits depth value fuel = some (v, '\x7d' :: rest)) :
    entries? limits depth ('"' :: s) (fuel + 1) = some ([(.text t, v)], rest) := by
  rw [entries?, skipSpace_cons (by decide)]
  show (text? limits s (s.length + 1)).bind _ = _
  rw [ht]
  show (value? limits depth value fuel).bind _ = _
  rw [hv]
  rfl

theorem entries?_more {s value rest : List Char} {t : RawText} {v : Value} {fuel : Nat}
    (ht : text? limits s (s.length + 1) = some (t, ':' :: value))
    (hv : value? limits depth value fuel = some (v, ',' :: rest)) :
    entries? limits depth ('"' :: s) (fuel + 1) =
      (entries? limits depth rest fuel).map fun read => ((.text t, v) :: read.1, read.2) := by
  rw [entries?, skipSpace_cons (by decide)]
  show (text? limits s (s.length + 1)).bind _ = _
  rw [ht]
  show (value? limits depth value fuel).bind _ = _
  rw [hv]
  show (entries? limits depth rest fuel).bind _ = _
  cases entries? limits depth rest fuel <;> rfl

end

/-! ## Atoms -/

/-- A text is read as the arranged form of a value, whatever follows it. -/
structure ReadsBack (v : Value) (s : List Char) : Prop where
  starts : ∃ c rest, s = c :: rest ∧ isSpace c = false ∧ c ≠ ']'
  reads (limits : Limits) (depth fuel : Nat) (rest : List Char) (hdepth : v.depth ≤ depth)
    (hfuel : 2 * s.length ≤ fuel) (hrest : Stops rest) :
    value? limits depth (s ++ rest) fuel = some (v.arranged, rest)

theorem exists_fuel {c : Char} {s : List Char} {fuel : Nat} (h : 2 * (c :: s).length ≤ fuel) :
    ∃ more, fuel = more + 1 := by
  rw [List.length_cons] at h
  exact ⟨fuel - 1, by omega⟩

theorem readsBack_null : ReadsBack .null "null".toList where
  starts := ⟨'n', "ull".toList, rfl, by decide, by decide⟩
  reads limits depth fuel rest _ hfuel _ := by
    obtain ⟨fuel, rfl⟩ := exists_fuel (c := 'n') (s := "ull".toList) hfuel
    rfl

theorem readsBack_flag (b : Bool) :
    ReadsBack (.flag b) (if b then "true" else "false").toList where
  starts := by
    cases b with
    | true => exact ⟨'t', "rue".toList, rfl, by decide, by decide⟩
    | false => exact ⟨'f', "alse".toList, rfl, by decide, by decide⟩
  reads limits depth fuel rest _ hfuel _ := by
    cases b with
    | true =>
      obtain ⟨fuel, rfl⟩ := exists_fuel (c := 't') (s := "rue".toList) hfuel
      rfl
    | false =>
      obtain ⟨fuel, rfl⟩ := exists_fuel (c := 'f') (s := "alse".toList) hfuel
      rfl

theorem cutWhole_head {s whole rest : List Char} (h : cutWhole s = some (whole, rest)) :
    ∃ c t, s = c :: t ∧ isDecimal c = true := by
  unfold cutWhole at h
  split at h
  · exact ⟨'0', _, rfl, by decide⟩
  · cases s with
    | nil => cases h
    | cons c t =>
      refine ⟨c, t, rfl, ?_⟩
      by_contra hc
      rw [List.takeWhile_cons_of_neg hc] at h
      cases h

/-- A text that is read as a number starts like one. -/
theorem number?_head {limits : Limits} {s rest : List Char} {v : Value}
    (h : number? limits s = some (v, rest)) : ∃ c t, s = c :: t ∧ StartsNumber c := by
  unfold number? at h
  split at h
  · exact ⟨'-', _, rfl, .inl rfl⟩
  · obtain ⟨⟨whole, behind⟩, hwhole, -⟩ := Option.bind_eq_some_iff.mp h
    obtain ⟨c, t, rfl, hc⟩ := cutWhole_head hwhole
    exact ⟨c, t, rfl, .inr hc⟩

/-- What is read as a number in front of any text is read back as a value. -/
theorem readsBack_number {v : Value} {s : List Char} (harranged : v.arranged = v)
    (h : ∀ (limits : Limits) (rest : List Char), Stops rest →
      number? limits (s ++ rest) = some (v, rest)) : ReadsBack v s := by
  have hself := h ⟨0, true, true⟩ [] (by intro c hc; cases hc)
  rw [List.append_nil] at hself
  obtain ⟨c, t, rfl, hc⟩ := number?_head hself
  refine ⟨⟨c, t, rfl, hc.isSpace, hc.ne (by decide) (by decide)⟩, ?_⟩
  intro limits depth fuel rest _ hfuel hrest
  obtain ⟨fuel, rfl⟩ := exists_fuel hfuel
  rw [List.cons_append, value?_number hc, ← List.cons_append, h limits rest hrest, harranged]

theorem readsBack_text {t : RawText} {s : List Char} (h : writeText? t = some s) :
    ReadsBack (.text t) s where
  starts := by
    obtain ⟨body, rfl, -⟩ := text?_writeText? ⟨0, true, true⟩ h []
    exact ⟨'"', body, rfl, by decide, by decide⟩
  reads limits depth fuel rest _ hfuel _ := by
    obtain ⟨body, rfl, hread⟩ := text?_writeText? limits h rest
    obtain ⟨fuel, rfl⟩ := exists_fuel hfuel
    rw [List.cons_append, value?, skipSpace_cons (by decide)]
    show (text? limits (body ++ rest) _).bind _ = _
    rw [hread]
    rfl

/-! ## Lists -/

theorem stops_cons {c : Char} (h : c = ',' ∨ c = ']' ∨ c = '\x7d') (rest : List Char) :
    Stops (c :: rest) := by
  intro d hd
  obtain rfl : c = d := by simpa using hd
  rcases h with rfl | rfl | rfl <;> decide

theorem joined_head {v : Value} {xs : List Value} {s : List Char} {items : List (List Char)}
    (h : List.Forall₂ ReadsBack (v :: xs) (s :: items)) :
    ∃ c rest, joined (s :: items) = c :: rest ∧ isSpace c = false ∧ c ≠ ']' := by
  cases h with
  | cons hs hitems =>
    obtain ⟨c, rest, rfl, hspace, hclose⟩ := hs.starts
    cases hitems with
    | nil => exact ⟨c, rest, rfl, hspace, hclose⟩
    | cons _ _ => exact ⟨c, _, rfl, hspace, hclose⟩

/-- The items of a list are read back one by one. -/
theorem items?_joined {v : Value} {xs : List Value} {s : List Char} {items : List (List Char)}
    (h : List.Forall₂ ReadsBack (v :: xs) (s :: items)) (limits : Limits) (depth fuel : Nat)
    (rest : List Char) (hdepth : Value.depthItems (v :: xs) ≤ depth)
    (hfuel : 2 * (joined (s :: items)).length < fuel) :
    items? limits depth (joined (s :: items) ++ ']' :: rest) fuel =
      some (Value.arrangedItems (v :: xs), rest) := by
  induction xs generalizing v s items fuel with
  | nil =>
    obtain ⟨hs, hitems⟩ := List.forall₂_cons.mp h
    cases hitems
    obtain ⟨fuel, rfl⟩ : ∃ more, fuel = more + 1 := ⟨fuel - 1, by omega⟩
    have hv : v.depth ≤ depth := Nat.le_trans (Nat.le_max_left _ _) hdepth
    rw [joined] at hfuel ⊢
    exact items?_last (hs.reads limits depth fuel _ hv (by omega) (stops_cons (by simp) rest))
  | cons w xs ih =>
    obtain ⟨hs, hitems⟩ := List.forall₂_cons.mp h
    cases hitems with
    | @cons _ t _ more ht hmore =>
      obtain ⟨fuel, rfl⟩ : ∃ more, fuel = more + 1 := ⟨fuel - 1, by omega⟩
      have hv : v.depth ≤ depth := Nat.le_trans (Nat.le_max_left _ _) hdepth
      have hxs : Value.depthItems (w :: xs) ≤ depth := Nat.le_trans (Nat.le_max_right _ _) hdepth
      have htext : joined (s :: t :: more) = s ++ ',' :: joined (t :: more) := rfl
      rw [htext, List.length_append, List.length_cons] at hfuel
      have hread := hs.reads limits depth fuel (',' :: (joined (t :: more) ++ ']' :: rest)) hv
        (by omega) (stops_cons (by simp) _)
      have hothers := ih (List.Forall₂.cons ht hmore) fuel hxs (by omega)
      rw [htext, List.append_assoc, List.cons_append, items?_more hread, hothers]
      rfl

theorem readsBack_list {xs : List Value} {items : List (List Char)}
    (h : List.Forall₂ ReadsBack xs items) :
    ReadsBack (.list xs) ('[' :: joined items ++ [']']) where
  starts := ⟨'[', joined items ++ [']'], rfl, by decide, by decide⟩
  reads limits depth fuel rest hdepth hfuel _ := by
    have hmore : 2 * (joined items).length + 4 ≤ fuel := by
      simp only [List.length_append, List.length_cons, List.length_nil] at hfuel
      omega
    obtain ⟨fuel, rfl⟩ : ∃ more, fuel = more + 1 := ⟨fuel - 1, by omega⟩
    rw [Value.depth] at hdepth
    obtain ⟨depth, rfl⟩ : ∃ less, depth = less + 1 := ⟨depth - 1, by omega⟩
    cases h with
    | nil => exact value?_list_nil rest fuel
    | cons hs hitems =>
      obtain ⟨c, tail, hhead, hspace, hclose⟩ := joined_head (.cons hs hitems)
      have hread := items?_joined (.cons hs hitems) limits depth fuel rest (by omega) (by omega)
      rw [List.append_assoc, List.singleton_append, List.cons_append]
      rw [hhead, List.cons_append] at hread ⊢
      rw [value?_list hspace hclose, hread]
      rfl

/-! ## Mappings -/

/-- The text of an entry is its key and, behind a colon, a text that its value is read back from. -/
structure EntryReadsBack (e : Value × Value) (p : RawText × List Char) : Prop where
  key : e.1 = .text p.1
  parts : ∃ key value, writeText? p.1 = some key ∧ p.2 = key ++ ':' :: value ∧
    ReadsBack e.2 value

theorem forall₂_mergeSort {α β : Type} {R : α → β → Prop} {le : α → α → Bool} {le' : β → β → Bool}
    {xs : List α} {ys : List β} (h : List.Forall₂ R xs ys)
    (hle : ∀ {a b c d}, R a c → R b d → le a b = le' c d) :
    List.Forall₂ R (xs.mergeSort le) (ys.mergeSort le') := by
  obtain ⟨hlength, hzip⟩ := List.forall₂_iff_zip.mp h
  have hfst : (xs.zip ys).map Prod.fst = xs := List.map_fst_zip (Nat.le_of_eq hlength)
  have hsnd : (xs.zip ys).map Prod.snd = ys := List.map_snd_zip (Nat.le_of_eq hlength.symm)
  have hx : ((xs.zip ys).mergeSort fun z w => le z.1 w.1).map Prod.fst = xs.mergeSort le := by
    rw [List.map_mergeSort (s := le), hfst]
    exact fun _ _ _ _ => rfl
  have hy : ((xs.zip ys).mergeSort fun z w => le z.1 w.1).map Prod.snd = ys.mergeSort le' := by
    rw [List.map_mergeSort (s := le'), hsnd]
    exact fun z hz w hw => hle (hzip hz) (hzip hw)
  rw [← hx, ← hy, List.forall₂_map_left_iff, List.forall₂_map_right_iff, List.forall₂_same]
  intro z hz
  exact hzip (List.mem_mergeSort.mp hz)

/-- Entries and their texts are sorted alike. -/
theorem forall₂_arrange {es : List (Value × Value)} {entries : List (RawText × List Char)}
    (h : List.Forall₂ EntryReadsBack es entries) :
    List.Forall₂ EntryReadsBack (Value.arrange es) (sorted entries) := by
  refine forall₂_mergeSort h ?_
  intro e f p q hp hq
  rw [hp.key, hq.key]
  rfl

theorem EntryReadsBack.text? {e : Value × Value} {p : RawText × List Char}
    (h : EntryReadsBack e p) (limits : Limits) (rest : List Char) :
    ∃ body value, p.2 = '"' :: body ∧ ReadsBack e.2 value ∧ value.length < body.length ∧
      text? limits (body ++ rest) ((body ++ rest).length + 1) =
        some (p.1, ':' :: (value ++ rest)) := by
  obtain ⟨key, value, hkey, htext, hvalue⟩ := h.parts
  obtain ⟨body, rfl, hread⟩ := text?_writeText? limits hkey (':' :: (value ++ rest))
  refine ⟨body ++ ':' :: value, value, htext, hvalue, ?_, ?_⟩
  · rw [List.length_append, List.length_cons]
    omega
  · rw [List.append_assoc, List.cons_append]
    exact hread

/-- The entries of a mapping are read back one by one. -/
theorem entries?_joined {e : Value × Value} {es : List (Value × Value)} {p : RawText × List Char}
    {ps : List (RawText × List Char)} (h : List.Forall₂ EntryReadsBack (e :: es) (p :: ps))
    (limits : Limits) (depth fuel : Nat) (rest : List Char)
    (hdepth : ∀ f ∈ e :: es, f.2.depth ≤ depth)
    (hfuel : 2 * (joined ((p :: ps).map (·.2))).length < fuel) :
    entries? limits depth (joined ((p :: ps).map (·.2)) ++ '\x7d' :: rest) fuel =
      some (Value.arrangedEntries (e :: es), rest) := by
  induction es generalizing e p ps fuel with
  | nil =>
    obtain ⟨hp, hps⟩ := List.forall₂_cons.mp h
    cases hps
    obtain ⟨fuel, rfl⟩ : ∃ more, fuel = more + 1 := ⟨fuel - 1, by omega⟩
    obtain ⟨body, value, htext, hvalue, hlength, hread⟩ := hp.text? limits ('\x7d' :: rest)
    simp only [List.map_cons, List.map_nil, joined] at hfuel ⊢
    rw [htext, List.length_cons] at hfuel
    have hv := hvalue.reads limits depth fuel ('\x7d' :: rest) (hdepth e List.mem_cons_self)
      (by omega) (stops_cons (by simp) rest)
    rw [htext, List.cons_append, entries?_last hread hv, ← hp.key]
    rfl
  | cons f es ih =>
    obtain ⟨hp, hps⟩ := List.forall₂_cons.mp h
    cases hps with
    | @cons _ q _ more hq hmore =>
      obtain ⟨fuel, rfl⟩ : ∃ more, fuel = more + 1 := ⟨fuel - 1, by omega⟩
      have hjoined : joined ((p :: q :: more).map (·.2)) =
        p.2 ++ ',' :: joined ((q :: more).map (·.2)) := rfl
      obtain ⟨body, value, htext, hvalue, hlength, hread⟩ :=
        hp.text? limits (',' :: (joined ((q :: more).map (·.2)) ++ '\x7d' :: rest))
      rw [hjoined, List.length_append, List.length_cons, htext, List.length_cons] at hfuel
      have hv := hvalue.reads limits depth fuel
        (',' :: (joined ((q :: more).map (·.2)) ++ '\x7d' :: rest)) (hdepth e List.mem_cons_self)
        (by omega) (stops_cons (by simp) _)
      have hothers := ih (List.Forall₂.cons hq hmore) fuel
        (fun g hg => hdepth g (List.mem_cons_of_mem _ hg)) (by omega)
      rw [hjoined, htext, List.append_assoc, List.cons_append, List.cons_append,
        entries?_more hread hv, hothers, ← hp.key]
      rfl

theorem joined_entries_head {e : Value × Value} {es : List (Value × Value)}
    {p : RawText × List Char} {ps : List (RawText × List Char)}
    (h : List.Forall₂ EntryReadsBack (e :: es) (p :: ps)) :
    ∃ tail, joined ((p :: ps).map (·.2)) = '"' :: tail := by
  cases h with
  | cons hp hps =>
    obtain ⟨body, value, htext, -, -, -⟩ := hp.text? ⟨0, true, true⟩ []
    cases hps with
    | nil => exact ⟨body, htext⟩
    | @cons _ q _ more _ _ =>
      refine ⟨body ++ ',' :: joined ((q :: more).map (·.2)), ?_⟩
      rw [← List.cons_append, ← htext]
      rfl

theorem exists_text_of_mem {es : List (Value × Value)} {ps : List (RawText × List Char)}
    (h : List.Forall₂ EntryReadsBack es ps) :
    ∀ e ∈ Value.arrangedEntries es, ∃ t, e.1 = .text t := by
  induction h with
  | nil => intro e he; cases he
  | cons hp _ ih =>
    intro e he
    rcases List.mem_cons.mp he with rfl | he
    · exact ⟨_, hp.key⟩
    · exact ih e he

theorem arranged_mapping (es : List (Value × Value)) :
    (Value.mapping es).arranged = .mapping (Value.arrangedEntries (Value.arrange es)) := by
  rw [Value.arranged, Value.arrangedEntries_eq_map, Value.arrangedEntries_eq_map,
    Value.arrange_map]

theorem readsBack_mapping {es : List (Value × Value)} {entries : List (RawText × List Char)}
    (h : List.Forall₂ EntryReadsBack es entries) (hkeys : (es.map Prod.fst).Nodup) :
    ReadsBack (.mapping es) ('\x7b' :: joined ((sorted entries).map (·.2)) ++ ['\x7d']) where
  starts := ⟨'\x7b', joined ((sorted entries).map (·.2)) ++ ['\x7d'], rfl, by decide, by decide⟩
  reads limits depth fuel rest hdepth hfuel _ := by
    have hmore : 2 * (joined ((sorted entries).map (·.2))).length + 4 ≤ fuel := by
      simp only [List.length_append, List.length_cons, List.length_nil] at hfuel
      omega
    obtain ⟨fuel, rfl⟩ : ∃ more, fuel = more + 1 := ⟨fuel - 1, by omega⟩
    rw [Value.depth] at hdepth
    obtain ⟨depth, rfl⟩ : ∃ less, depth = less + 1 := ⟨depth - 1, by omega⟩
    have hperm := Value.perm_arrange es
    have hnodup : ((Value.arrangedEntries (Value.arrange es)).map Prod.fst).Nodup := by
      rw [Value.map_fst_arrangedEntries]
      exact (hperm.map _).nodup_iff.mpr hkeys
    have hdepths : ∀ f ∈ Value.arrange es, f.2.depth ≤ depth :=
      fun f hf => Value.depth_le_of_mem (Nat.le_of_succ_le_succ (by omega)) f (hperm.subset hf)
    have hsorted := forall₂_arrange h
    rw [arranged_mapping]
    generalize Value.arrange es = fs at hnodup hdepths hsorted ⊢
    generalize sorted entries = ps at hmore hsorted ⊢
    cases hsorted with
    | nil => exact value?_mapping_nil rest fuel
    | @cons f p fs ps hp hps =>
      have htexts := exists_text_of_mem (.cons hp hps)
      have hread := entries?_joined (.cons hp hps) limits depth fuel rest hdepths (by omega)
      obtain ⟨tail, htail⟩ := joined_entries_head (.cons hp hps)
      rw [List.append_assoc, List.singleton_append, List.cons_append]
      rw [htail, List.cons_append] at hread ⊢
      rw [value?_mapping, hread, Option.map_some, Value.ofEntries_of_nodup hnodup htexts]

/-! ## Values -/

mutual

/-- The text of a value that a payload can carry is read back from whatever follows it. -/
theorem readsBack_of_write? : ∀ (v : Value) (s : List Char), v.Distinct → v.offender? = none →
    write? v = some s → ReadsBack v s
  | .null, s, _, _, h => by
    cases h
    exact readsBack_null
  | .flag b, s, _, _, h => by
    cases h
    exact readsBack_flag b
  | .integer n, s, _, hoffender, h => by
    have hn : isNarrow n = true := by
      by_contra hn
      simp [Value.offender?, hn] at hoffender
    cases h
    exact readsBack_number rfl fun limits rest hrest => number?_integer limits hn hrest
  | .real x, s, _, hoffender, h => by
    cases x with
    | finite negative m =>
      cases h
      exact readsBack_number rfl fun limits rest hrest =>
        number?_write Layout.payload limits negative m hrest
    | infinite negative => cases hoffender
    | nan => cases hoffender
  | .text t, s, _, _, h => readsBack_text h
  | .list xs, s, hdistinct, hoffender, h => by
    obtain ⟨items, hitems, rfl⟩ := Option.map_eq_some_iff.mp h
    exact readsBack_list (forall₂_of_writeItems? xs 0 items hdistinct hoffender hitems)
  | .mapping es, s, hdistinct, hoffender, h => by
    obtain ⟨entries, hentries, rfl⟩ := Option.map_eq_some_iff.mp h
    exact readsBack_mapping (forall₂_of_writeEntries? es entries hdistinct.2 hoffender hentries)
      hdistinct.1
  | .bytes _, _, _, hoffender, _ => by cases hoffender
  | .date _, _, _, hoffender, _ => by cases hoffender
  | .moment _, _, _, hoffender, _ => by cases hoffender
  | .tuple _, _, _, hoffender, _ => by cases hoffender
  | .set _, _, _, hoffender, _ => by cases hoffender
  | .cycle, _, _, hoffender, _ => by cases hoffender

theorem forall₂_of_writeItems? : ∀ (xs : List Value) (start : Nat) (items : List (List Char)),
    Value.DistinctItems xs → Value.itemOffender? start xs = none → writeItems? xs = some items →
    List.Forall₂ ReadsBack xs items
  | [], _, items, _, _, h => by
    cases h
    exact .nil
  | x :: xs, start, items, hdistinct, hoffender, h => by
    obtain ⟨item, hitem, h⟩ := Option.bind_eq_some_iff.mp h
    obtain ⟨more, hmore, h⟩ := Option.bind_eq_some_iff.mp h
    cases h
    rw [Value.itemOffender?] at hoffender
    split at hoffender
    · cases hoffender
    · next hx =>
      exact .cons (readsBack_of_write? x item hdistinct.1 hx hitem)
        (forall₂_of_writeItems? xs (start + 1) more hdistinct.2 hoffender hmore)

theorem forall₂_of_writeEntries? : ∀ (es : List (Value × Value))
    (entries : List (RawText × List Char)), Value.DistinctEntries es →
    Value.entryOffender? es = none → writeEntries? es = some entries →
    List.Forall₂ EntryReadsBack es entries
  | [], entries, _, _, h => by
    cases h
    exact .nil
  | (.text t, v) :: es, entries, hdistinct, hoffender, h => by
    obtain ⟨key, hkey, h⟩ := Option.bind_eq_some_iff.mp h
    obtain ⟨value, hvalue, h⟩ := Option.bind_eq_some_iff.mp h
    obtain ⟨more, hmore, h⟩ := Option.bind_eq_some_iff.mp h
    cases h
    rw [Value.entryOffender?] at hoffender
    split at hoffender
    · cases hoffender
    · next hv =>
      exact .cons ⟨rfl, key, value, hkey, rfl, readsBack_of_write? v value hdistinct.1 hv hvalue⟩
        (forall₂_of_writeEntries? es more hdistinct.2 hoffender hmore)

end

/-- **The text of a value is read back as the value with its mappings sorted by their keys.** -/
theorem read?_write? {v : Value} {s : List Char} (hdistinct : v.Distinct)
    (hoffender : v.offender? = none) (h : write? v = some s) (limits : Limits)
    (hdepth : v.depth ≤ limits.depth) : read? limits s = some v.arranged := by
  have hback := readsBack_of_write? v s hdistinct hoffender h
  have hread := hback.reads limits limits.depth (2 * s.length + 2) [] hdepth (by omega)
    (by intro c hc; cases hc)
  rw [List.append_nil] at hread
  rw [read?, hread]
  rfl

end Assemblage.Json
