import Assemblage.Json.Reader
import Assemblage.Proofs.Yaml.Content

/-!
# Keys of what was read

A mapping that was read keeps one entry of each key, however often its text repeats the key.

Main statement: `read?_distinct`.
-/

namespace Assemblage.Json
set_option autoImplicit false

/-- The keys of a mapping are keys that were given. -/
theorem texts_insert {t : RawText} {value : Value} {es : List (Value × Value)}
    (h : ∀ e ∈ es, ∃ t, e.1 = .text t) :
    ∀ e ∈ Value.insert (.text t) value es, ∃ t, e.1 = .text t := by
  intro e he
  by_cases hsame : ∃ e ∈ es, Value.same e.1 (.text t) = true
  · have hkey := List.mem_map_of_mem (f := Prod.fst) he
    rw [Value.map_fst_insert hsame] at hkey
    obtain ⟨f, hf, hfe⟩ := List.mem_map.mp hkey
    rw [← hfe]
    exact h f hf
  · have hnew : ∀ e ∈ es, Value.same e.1 (.text t) = false := by
      intro f hf
      by_contra hne
      exact hsame ⟨f, hf, by simpa using hne⟩
    rw [Value.insert_new hnew] at he
    rcases List.mem_append.mp he with he | he
    · exact h e he
    · obtain rfl := List.mem_singleton.mp he
      exact ⟨t, rfl⟩

theorem distinct_ofEntries {es : List (Value × Value)} (htexts : ∀ e ∈ es, ∃ t, e.1 = .text t)
    (hvalues : ∀ e ∈ es, e.2.Distinct) : (Value.ofEntries es).Distinct := by
  obtain ⟨fs, hfs, hunlike, hgiven⟩ := Value.unlike_ofEntries es
  have hkeys : ∀ e ∈ es.foldl (fun es e => Value.insert e.1 e.2 es) [], ∃ t, e.1 = .text t := by
    clear hfs hunlike hgiven hvalues fs
    induction es using List.reverseRecOn with
    | nil => simp
    | append_singleton es e ih =>
      obtain ⟨t, ht⟩ := htexts e (by simp)
      rw [List.foldl_append, List.foldl_cons, List.foldl_nil, ht]
      exact texts_insert (ih fun e he => htexts e (List.mem_append_left _ he))
  have hmapping : es.foldl (fun es e => Value.insert e.1 e.2 es) [] = fs :=
    Value.mapping.inj hfs
  rw [hmapping] at hkeys
  rw [hfs]
  refine ⟨Value.nodup_of_unlike hunlike hkeys, Value.distinctEntries_iff.mpr fun f hf => ?_⟩
  obtain ⟨e, he, hvalue⟩ := hgiven f hf
  rw [← hvalue]
  exact hvalues e he

theorem distinct_finite? {x : Binary64} {v : Value} (h : finite? x = some v) : v.Distinct := by
  unfold finite? at h
  split at h
  · cases h
    trivial
  · cases h

theorem distinct_number? {limits : Limits} {s rest : List Char} {v : Value}
    (h : number? limits s = some (v, rest)) : v.Distinct := by
  have hunsigned : ∀ {negative : Bool} {s : List Char},
      unsigned? limits negative s = some (v, rest) → v.Distinct := by
    intro negative s h
    obtain ⟨⟨whole, s₁⟩, -, h⟩ := Option.bind_eq_some_iff.mp h
    obtain ⟨⟨fraction, s₂⟩, -, h⟩ := Option.bind_eq_some_iff.mp h
    obtain ⟨⟨exponent, s₃⟩, -, h⟩ := Option.bind_eq_some_iff.mp h
    cases fraction with
    | none =>
      cases exponent with
      | none =>
        simp only at h
        generalize (if negative = true then -(_ : Int) else _) = n at h
        split at h
        · cases h
          trivial
        · obtain ⟨x, hx, h⟩ := Option.bind_eq_some_iff.mp h
          cases h
          exact distinct_finite? hx
      | some exponent =>
        obtain ⟨x, hx, h⟩ := Option.bind_eq_some_iff.mp h
        cases h
        exact distinct_finite? hx
    | some fraction =>
      obtain ⟨x, hx, h⟩ := Option.bind_eq_some_iff.mp h
      cases h
      exact distinct_finite? hx
  unfold number? at h
  split at h
  · exact hunsigned h
  · exact hunsigned h

mutual

theorem distinct_value? (limits : Limits) : ∀ (fuel depth : Nat) (s : List Char) (v : Value)
    (rest : List Char), value? limits depth s fuel = some (v, rest) → v.Distinct
  | 0, _, _, _, _, h => by cases h
  | fuel + 1, depth, s, v, rest, h => by
    rw [value?] at h
    split at h
    · cases h
    · split at h
      · cases h
      · split at h
        · cases h
          trivial
        · obtain ⟨⟨items, rest'⟩, hitems, h⟩ := Option.bind_eq_some_iff.mp h
          cases h
          exact Value.distinctItems_iff.mpr (distinct_items? limits fuel _ _ _ _ hitems)
    · split at h
      · cases h
      · split at h
        · cases h
          exact ⟨List.nodup_nil, trivial⟩
        · obtain ⟨⟨entries, rest'⟩, hentries, h⟩ := Option.bind_eq_some_iff.mp h
          cases h
          have hall := distinct_entries? limits fuel _ _ _ _ hentries
          exact distinct_ofEntries (fun e he => (hall e he).1) fun e he => (hall e he).2
    · obtain ⟨⟨t, rest'⟩, -, h⟩ := Option.bind_eq_some_iff.mp h
      cases h
      trivial
    -- the three words
    iterate 3
      · obtain ⟨rest', -, h⟩ := Option.bind_eq_some_iff.mp h
        cases h
        trivial
    · exact distinct_number? h

theorem distinct_items? (limits : Limits) : ∀ (fuel depth : Nat) (s : List Char)
    (xs : List Value) (rest : List Char), items? limits depth s fuel = some (xs, rest) →
    ∀ x ∈ xs, x.Distinct
  | 0, _, _, _, _, h => by cases h
  | fuel + 1, depth, s, xs, rest, h => by
    rw [items?] at h
    obtain ⟨⟨item, behind⟩, hitem, h⟩ := Option.bind_eq_some_iff.mp h
    have hx := distinct_value? limits fuel _ _ _ _ hitem
    simp only at h
    split at h
    · cases h
      exact List.forall_mem_singleton.mpr hx
    · obtain ⟨⟨items, rest'⟩, hitems, h⟩ := Option.bind_eq_some_iff.mp h
      cases h
      exact List.forall_mem_cons.mpr ⟨hx, distinct_items? limits fuel _ _ _ _ hitems⟩
    · cases h

theorem distinct_entries? (limits : Limits) : ∀ (fuel depth : Nat) (s : List Char)
    (es : List (Value × Value)) (rest : List Char),
    entries? limits depth s fuel = some (es, rest) →
    ∀ e ∈ es, (∃ t, e.1 = .text t) ∧ e.2.Distinct
  | 0, _, _, _, _, h => by cases h
  | fuel + 1, depth, s, es, rest, h => by
    rw [entries?] at h
    obtain ⟨key, -, h⟩ := Option.bind_eq_some_iff.mp h
    obtain ⟨⟨t, behind⟩, -, h⟩ := Option.bind_eq_some_iff.mp h
    obtain ⟨colon, -, h⟩ := Option.bind_eq_some_iff.mp h
    obtain ⟨⟨value, behind⟩, hvalue, h⟩ := Option.bind_eq_some_iff.mp h
    have hv : (∃ u, (Value.text t, value).1 = .text u) ∧ (Value.text t, value).2.Distinct :=
      ⟨⟨t, rfl⟩, distinct_value? limits fuel _ _ _ _ hvalue⟩
    simp only at h
    split at h
    · cases h
      exact List.forall_mem_singleton.mpr hv
    · obtain ⟨⟨entries, rest'⟩, hentries, h⟩ := Option.bind_eq_some_iff.mp h
      cases h
      exact List.forall_mem_cons.mpr ⟨hv, distinct_entries? limits fuel _ _ _ _ hentries⟩
    · cases h

end

/-- A value that was read has every key once, whatever its text repeats. -/
theorem read?_distinct {limits : Limits} {s : List Char} {v : Value}
    (h : read? limits s = some v) : v.Distinct := by
  obtain ⟨⟨w, rest⟩, hvalue, h⟩ := Option.bind_eq_some_iff.mp h
  simp only at h
  split at h
  · cases h
    exact distinct_value? limits _ _ _ _ _ hvalue
  · cases h

end Assemblage.Json
