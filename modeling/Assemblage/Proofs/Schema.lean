import Assemblage.Proofs.Json.Arrangement
import Assemblage.Schema

/-!
# Checks that pass

A combined check passes exactly if its parts do (`seq_eq_ok`), and where a field passes, it is
either at its default or there with a value that passes (`defaulted_eq_ok`). A mapping that passes
as a dictionary has every key once (`nodup_dictionary`), even if two of its keys name one text.
-/

namespace Assemblage
set_option autoImplicit false

/-! ## Combined checks -/

namespace Checked
variable {α β : Type}

theorem seq_eq_ok {f : Checked (α → β)} {x : Checked α} {b : β} :
    (f <*> x) = ok b ↔ ∃ g a, f = ok g ∧ x = ok a ∧ g a = b := by
  show seq f (fun _ => x) = ok b ↔ _
  cases f with
  | ok g =>
    cases x with
    | ok a => simp [seq]
    | bad ps => simp [seq]
  | bad ps => cases x <;> simp [seq]

theorem map_eq_ok {f : α → β} {x : Checked α} {b : β} :
    (f <$> x) = ok b ↔ ∃ a, x = ok a ∧ f a = b := by
  have h : (f <$> x) = ((ok f : Checked (α → β)) <*> x) := rfl
  rw [h, seq_eq_ok]
  simp

theorem under_eq_ok {step : Step} {x : Checked α} {a : α} : x.under step = ok a ↔ x = ok a := by
  cases x <;> simp [under]

theorem andThen_eq_ok {x : Checked α} {f : α → Checked β} {b : β} :
    x.andThen f = ok b ↔ ∃ a, x = ok a ∧ f a = ok b := by
  cases x <;> simp [andThen]

end Checked

/-! ## Fields and items -/

namespace Schema
variable {α : Type}

theorem optional_eq_ok {check : Value → Checked α} {v : Value} {a : α}
    (h : optional check v = .ok (some a)) : check v = .ok a := by
  unfold optional at h
  split at h
  · cases h
  · obtain ⟨b, hb, hsome⟩ := Checked.map_eq_ok.mp h
    rw [hb, Option.some.inj hsome]

theorem atLeast_eq_ok {least n m : Int} (h : atLeast least n = .ok m) : n = m ∧ least ≤ m := by
  unfold atLeast at h
  split at h
  · next hle =>
    cases h
    exact ⟨rfl, hle⟩
  · cases h

theorem defaulted_eq_ok {es : List (Value × Value)} {name : String} {default a : α}
    {check : Value → Checked α} (h : defaulted es name default check = .ok a) :
    a = default ∨ ∃ v, Value.lookup name es = some v ∧ check v = .ok a := by
  unfold defaulted at h
  cases hv : Value.lookup name es with
  | none =>
    rw [hv] at h
    cases h
    exact .inl rfl
  | some v =>
    rw [hv] at h
    exact .inr ⟨v, rfl, Checked.under_eq_ok.mp h⟩

theorem required_eq_ok {es : List (Value × Value)} {name : String} {check : Value → Checked α}
    {a : α} (h : required es name check = .ok a) :
    ∃ v, Value.lookup name es = some v ∧ check v = .ok a := by
  unfold required at h
  cases hv : Value.lookup name es with
  | none =>
    rw [hv] at h
    cases h
  | some v =>
    rw [hv] at h
    exact ⟨v, rfl, Checked.under_eq_ok.mp h⟩

theorem itemsFrom_eq_ok {check : Value → Checked α} {start : Nat} {xs : List Value} {as : List α}
    (h : itemsFrom check start xs = .ok as) :
    List.Forall₂ (fun x a => check x = .ok a) xs as := by
  induction xs generalizing start as with
  | nil =>
    cases h
    exact .nil
  | cons x xs ih =>
    obtain ⟨g, rest, hhead, hrest, rfl⟩ := Checked.seq_eq_ok.mp h
    obtain ⟨a, ha, rfl⟩ := Checked.map_eq_ok.mp hhead
    exact .cons (Checked.under_eq_ok.mp ha) (ih hrest)

theorem itemsFrom_of_forall₂ {check : Value → Checked α} {start : Nat} {xs : List Value}
    {as : List α} (h : List.Forall₂ (fun x a => check x = .ok a) xs as) :
    itemsFrom check start xs = .ok as := by
  induction h generalizing start with
  | nil => rfl
  | cons hx _ ih =>
    rw [itemsFrom, hx, ih]
    rfl

theorem listOf_eq_ok {check : Value → Checked α} {v : Value} {as : List α}
    (h : listOf check v = .ok as) :
    ∃ xs, items? v = some xs ∧ List.Forall₂ (fun x a => check x = .ok a) xs as := by
  unfold listOf at h
  cases hv : items? v with
  | none =>
    rw [hv] at h
    cases h
  | some xs =>
    rw [hv] at h
    exact ⟨xs, rfl, itemsFrom_eq_ok h⟩

theorem inFront_new {t : RawText} {rest : List (RawText × Value)} (h : t ∉ rest.map Prod.fst)
    (v : Value) : inFront t v rest = (t, v) :: rest := by
  have hne : ∀ e ∈ rest, e.1 ≠ t := by
    rintro e he rfl
    exact h (List.mem_map_of_mem he)
  have hlookup : rest.lookup t = none := by
    rw [List.lookup_eq_none_iff]
    intro e he
    simpa using (hne e he).symm
  have hfilter : (rest.filter fun e => e.1 != t) = rest := by
    rw [List.filter_eq_self]
    intro e he
    simpa using hne e he
  rw [inFront, hlookup, hfilter, Option.getD_none]

theorem nodup_inFront {t : RawText} {v : Value} {rest : List (RawText × Value)}
    (h : (rest.map Prod.fst).Nodup) : ((inFront t v rest).map Prod.fst).Nodup := by
  rw [inFront, List.map_cons, List.nodup_cons]
  constructor
  · intro hmem
    obtain ⟨e, he, hkey⟩ := List.mem_map.mp hmem
    have hne := (List.mem_filter.mp he).2
    rw [hkey] at hne
    simp at hne
  · exact (List.filter_sublist.map Prod.fst).nodup h

theorem mem_inFront {t : RawText} {v : Value} {rest : List (RawText × Value)} {e : RawText × Value}
    (h : e ∈ inFront t v rest) : e.2 = v ∨ ∃ k, (k, e.2) ∈ rest := by
  rcases List.mem_cons.mp h with rfl | h
  · cases hlookup : rest.lookup t with
    | none => exact .inl rfl
    | some w =>
      obtain ⟨before, after, rfl, -⟩ := List.lookup_eq_some_iff.mp hlookup
      exact .inr ⟨t, List.mem_append_right _ List.mem_cons_self⟩
  · exact .inr ⟨e.1, (List.mem_filter.mp h).1⟩

/-- A dictionary has every key once, and no values but those of the mapping. -/
theorem nodup_dictionary {v : Value} {cs : List (RawText × Value)} (h : dictionary v = .ok cs) :
    (cs.map Prod.fst).Nodup ∧ ∃ es, v = .mapping es ∧ ∀ c ∈ cs, ∃ k, (k, c.2) ∈ es := by
  cases v with
  | mapping es =>
    have hentries : dictionary.entries es = .ok cs := h
    suffices hcs : (cs.map Prod.fst).Nodup ∧ ∀ c ∈ cs, ∃ k, (k, c.2) ∈ es from
      ⟨hcs.1, es, rfl, hcs.2⟩
    clear h
    induction es generalizing cs with
    | nil =>
      cases hentries
      simp
    | cons e es ih =>
      obtain ⟨g, rest, hhead, hrest, rfl⟩ := Checked.seq_eq_ok.mp hentries
      obtain ⟨t, ht, rfl⟩ := Checked.map_eq_ok.mp hhead
      obtain ⟨hnodup, hvalues⟩ := ih hrest
      refine ⟨nodup_inFront hnodup, ?_⟩
      intro c hc
      rcases mem_inFront hc with hv | ⟨k, hk⟩
      · exact ⟨e.1, by rw [hv]; exact List.mem_cons_self⟩
      · obtain ⟨k', hk'⟩ := hvalues (k, c.2) hk
        exact ⟨k', List.mem_cons_of_mem _ hk'⟩
  | _ => cases h

end Schema

end Assemblage
