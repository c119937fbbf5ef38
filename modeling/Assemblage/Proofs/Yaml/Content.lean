import Assemblage.Proofs.Json.Arrangement
import Assemblage.Proofs.World.Safety
import Assemblage.Yaml.Content
import Mathlib.Data.List.Induction

/-!
# The mappings of a document

Of several entries with one key, a mapping of a document keeps one: no two of its keys are the same
(`unlike_ofEntries`). Keys are compared as numbers are, so that a key which is not the same as
itself can still stand twice; but a text is never such a key. Hence the values of a document that a
payload can carry, whose keys are all texts, have every key once.

Main statement: `load_distinct`.
-/

namespace Assemblage
set_option autoImplicit false

/-! ## Entries of different keys -/

namespace Value

/-- Whether no key is the same as a later one. -/
def Unlike (es : List (Value × Value)) : Prop :=
  (es.map Prod.fst).Pairwise fun k l => same k l = false

/-- Putting an entry in place of one with the same key leaves the keys as they are. -/
theorem map_fst_insert {key value : Value} {es : List (Value × Value)}
    (h : ∃ e ∈ es, same e.1 key = true) :
    (insert key value es).map Prod.fst = es.map Prod.fst := by
  induction es with
  | nil => simp at h
  | cons e es ih =>
    obtain ⟨k, v⟩ := e
    rw [insert]
    by_cases hk : same k key = true
    · rw [if_pos hk]
      rfl
    · obtain ⟨f, hf, hsame⟩ := h
      have hmem : f ∈ es := by
        rcases List.mem_cons.mp hf with rfl | hf
        · exact absurd hsame hk
        · exact hf
      rw [if_neg hk, List.map_cons, List.map_cons, ih ⟨f, hmem, hsame⟩]

theorem unlike_insert {key value : Value} {es : List (Value × Value)} (h : Unlike es) :
    Unlike (insert key value es) := by
  by_cases hsame : ∃ e ∈ es, same e.1 key = true
  · rw [Unlike, map_fst_insert hsame]
    exact h
  · have hnew : ∀ e ∈ es, same e.1 key = false := by
      intro e he
      by_contra hne
      exact hsame ⟨e, he, by simpa using hne⟩
    rw [Unlike, insert_new hnew, List.map_append, List.pairwise_append]
    refine ⟨h, by simp, ?_⟩
    intro k hk l hl
    obtain ⟨e, he, rfl⟩ := List.mem_map.mp hk
    obtain rfl : l = key := by simpa using hl
    exact hnew e he

theorem mem_insert {key value : Value} {es : List (Value × Value)} {e : Value × Value}
    (h : e ∈ insert key value es) : e.2 = value ∨ ∃ f ∈ es, f.2 = e.2 := by
  induction es with
  | nil =>
    obtain rfl : e = (key, value) := by simpa [insert] using h
    exact .inl rfl
  | cons f es ih =>
    obtain ⟨k, v⟩ := f
    rw [insert] at h
    split at h
    · rcases List.mem_cons.mp h with rfl | h
      · exact .inl rfl
      · exact .inr ⟨e, List.mem_cons_of_mem _ h, rfl⟩
    · rcases List.mem_cons.mp h with rfl | h
      · exact .inr ⟨(k, v), List.mem_cons_self, rfl⟩
      · rcases ih h with hvalue | ⟨f, hf, hsecond⟩
        · exact .inl hvalue
        · exact .inr ⟨f, List.mem_cons_of_mem _ hf, hsecond⟩

/-- The entries of a mapping have different keys, and no values but those that were given. -/
theorem unlike_ofEntries (es : List (Value × Value)) :
    ∃ fs, ofEntries es = mapping fs ∧ Unlike fs ∧ ∀ f ∈ fs, ∃ e ∈ es, e.2 = f.2 := by
  refine ⟨_, rfl, ?_⟩
  induction es using List.reverseRecOn with
  | nil => exact ⟨.nil, by simp⟩
  | append_singleton es e ih =>
    rw [List.foldl_append, List.foldl_cons, List.foldl_nil]
    refine ⟨unlike_insert ih.1, fun f hf => ?_⟩
    rcases mem_insert hf with hvalue | ⟨g, hg, hsecond⟩
    · exact ⟨e, by simp, hvalue.symm⟩
    · obtain ⟨e', he', hfirst⟩ := ih.2 g hg
      exact ⟨e', List.mem_append_left _ he', hfirst.trans hsecond⟩

/-- Texts that are not the same are different, so that such keys are distinct. -/
theorem nodup_of_unlike {es : List (Value × Value)} (h : Unlike es)
    (htexts : ∀ e ∈ es, ∃ t, e.1 = text t) : (es.map Prod.fst).Nodup := by
  refine List.Pairwise.imp_of_mem ?_ h
  intro k l hk _ hdiffer hkl
  obtain ⟨e, he, rfl⟩ := List.mem_map.mp hk
  obtain ⟨t, ht⟩ := htexts e he
  rw [← hkl, ht, same_text, beq_self_eq_true] at hdiffer
  cases hdiffer

/-- Whether a value has every key once, if a payload can carry it. -/
def DistinctIfFit (v : Value) : Prop := v.offender? = none → v.Distinct

theorem distinctIfFit_list {xs : List Value} (h : ∀ x ∈ xs, x.DistinctIfFit) :
    (list xs).DistinctIfFit := by
  intro hfit
  have hitems : ∀ x ∈ xs, x.Distinct := fun x hx => h x hx (itemOffender?_eq_none.mp hfit x hx)
  clear h hfit
  induction xs with
  | nil => trivial
  | cons x xs ih =>
    obtain ⟨hx, hxs⟩ := List.forall_mem_cons.mp hitems
    exact ⟨hx, ih hxs⟩

theorem distinctIfFit_ofEntries {es : List (Value × Value)} (h : ∀ e ∈ es, e.2.DistinctIfFit) :
    (ofEntries es).DistinctIfFit := by
  obtain ⟨fs, hfs, hunlike, hvalues⟩ := unlike_ofEntries es
  intro hfit
  rw [hfs] at hfit ⊢
  have hentries := entryOffender?_eq_none.mp hfit
  refine ⟨nodup_of_unlike hunlike fun f hf => (hentries f hf).1, distinctEntries_iff.mpr ?_⟩
  intro f hf
  obtain ⟨e, he, hvalue⟩ := hvalues f hf
  rw [← hvalue]
  exact h e he (by rw [hvalue]; exact (hentries f hf).2)

end Value

namespace Value

/-- Whether a value is no collection. -/
def IsSingle : Value → Prop
  | list _ | tuple _ | set _ | mapping _ | cycle => False
  | _ => True

theorem IsSingle.distinct {v : Value} (h : v.IsSingle) : v.Distinct := by
  cases v with
  | list | tuple | set | mapping | cycle => exact h.elim
  | _ => trivial

end Value

/-! ## Outcomes without a fault -/

namespace Yaml
variable {ε δ α β : Type}

theorem map_eq_ok {f : α → β} {x : Except ε α} {b : β} (h : x.map f = .ok b) :
    ∃ a, x = .ok a ∧ f a = b := by
  cases x with
  | error e => cases h
  | ok a =>
    cases h
    exact ⟨a, rfl, rfl⟩

theorem mapError_eq_ok {f : ε → δ} {x : Except ε α} {a : α} (h : x.mapError f = .ok a) :
    x = .ok a := by
  cases x with
  | error e => cases h
  | ok b =>
    cases h
    rfl

theorem bind_eq_ok {f : α → Except ε β} {x : Except ε α} {b : β} (h : x >>= f = .ok b) :
    ∃ a, x = .ok a ∧ f a = .ok b := by
  cases x with
  | error e => cases h
  | ok a => exact ⟨a, rfl, h⟩

end Yaml

/-! ## From nodes to values -/

namespace Yaml.Content
open Assemblage.Value

theorem both_eq_ok {α β : Type} {x : Outcome α} {y : Outcome β} {p : α × β}
    (h : both x y = .ok p) : x = .ok p.1 ∧ y = .ok p.2 := by
  cases x with
  | error e => cases y <;> cases h
  | ok a =>
    cases y with
    | error e => cases h
    | ok b =>
      cases h
      exact ⟨rfl, rfl⟩

theorem mem_of_all {α : Type} {xs : List (Outcome α)} {as : List α} (h : all xs = .ok as) :
    ∀ a ∈ as, Except.ok a ∈ xs := by
  induction xs generalizing as with
  | nil =>
    cases h
    simp
  | cons x xs ih =>
    obtain ⟨p, hp, rfl⟩ := map_eq_ok h
    obtain ⟨hx, hxs⟩ := both_eq_ok hp
    intro a ha
    rcases List.mem_cons.mp ha with rfl | ha
    · rw [← hx]
      exact List.mem_cons_self
    · exact List.mem_cons_of_mem _ (ih hxs a ha)

theorem tuples_of_all {items : List Node} {f : Node → Outcome Value} {xs : List Value}
    (h : all (items.map f) = .ok xs)
    (hf : ∀ item x, f item = .ok x → ∃ parts, x = Value.tuple parts) :
    ∀ x ∈ xs, ∃ parts, x = Value.tuple parts := by
  intro x hx
  obtain ⟨item, -, hitem⟩ := List.mem_map.mp (mem_of_all h x hx)
  exact hf item x hitem

theorem single_integer {s : List Char} {v : Value} (h : integer s = .ok v) : v.IsSingle := by
  unfold integer at h
  simp only at h
  split at h
  · cases h
  · split at h
    · cases h
    · cases h
      trivial

theorem single_real {s : List Char} {v : Value} (h : real s = .ok v) : v.IsSingle := by
  unfold real at h
  simp only at h
  split at h
  · cases h
  · split at h
    · cases h
      trivial
    · split at h
      · cases h
        trivial
      · split at h <;> split at h
        · cases h
        · obtain ⟨x, -, rfl⟩ := map_eq_ok h
          trivial
        · cases h
        · cases h
          trivial

theorem single_flag {s : List Char} {v : Value} (h : flag s = .ok v) : v.IsSingle := by
  unfold flag at h
  simp only at h
  split at h
  · cases h
    trivial
  · split at h
    · cases h
      trivial
    · cases h

theorem single_timestamp {s : List Char} {v : Value} (h : timestamp s = .ok v) :
    v.IsSingle := by
  unfold timestamp at h
  simp only at h
  split at h
  · next stamp _ =>
    cases h
    cases stamp <;> trivial
  · cases h
  · cases h

theorem single_binary {t : RawText} {v : Value} (h : binary t = .ok v) : v.IsSingle := by
  unfold binary at h
  split at h
  · cases h
  · split at h
    · cases h
    · split at h
      · cases h
      · cases h
        trivial

/-- A scalar is no collection. -/
theorem single_scalar {kind : Kind} {content : RawText} {v : Value}
    (h : scalar kind content = .ok v) : v.IsSingle := by
  cases kind with
  | null | text =>
    cases h
    trivial
  | flag => exact single_flag h
  | integer => exact single_integer h
  | real => exact single_real h
  | binary => exact single_binary h
  | timestamp => exact single_timestamp h
  | _ => cases h

variable [Stack]

theorem single_eq_ok {node : Node} {v : Value} (h : single node = .ok v) :
    ∃ content, scalar (kindOf node) content = .ok v := by
  unfold single at h
  rcases Bool.eq_false_or_eq_true (hasScalar (kindOf node)) with hkind | hkind
  · rw [hkind] at h
    obtain ⟨content, -, h⟩ := bind_eq_ok h
    refine ⟨content, ?_⟩
    dsimp only at h
    split at h
    · cases h
    · exact h
  · rw [hkind] at h
    cases h

/-- The nodes that are met on the next level below a node: the items of a sequence, the keys and the
values of a mapping with what its merge keys take in, and those of the single entries of which pairs
are made. -/
inductive Part : Node → Node → Prop
  | item {kind : Kind} {items : List Node} {item : Node} (h : item ∈ items) :
    Part item (.sequence kind items)
  | key {kind : Kind} {entries flat : List (Node × Node)} {entry : Node × Node}
    (hflat : flatten entries = .ok flat) (h : entry ∈ flat) : Part entry.1 (.mapping kind entries)
  | value {kind : Kind} {entries flat : List (Node × Node)} {entry : Node × Node}
    (hflat : flatten entries = .ok flat) (h : entry ∈ flat) : Part entry.2 (.mapping kind entries)
  | pairKey {kind inner : Kind} {items : List Node} {key value : Node}
    (h : .mapping inner [(key, value)] ∈ items) : Part key (.sequence kind items)
  | pairValue {kind inner : Kind} {items : List Node} {key value : Node}
    (h : .mapping inner [(key, value)] ∈ items) : Part value (.sequence kind items)

/-- What a node can become: a mark, a list or a mapping of what its parts become, a set, a list of
pairs, or a scalar. -/
theorem build_cases {fuel level : Nat} {node : Node} {v : Value}
    (h : build level node (fuel + 1) = .ok v) :
    (v = .cycle ∧ ∃ out isMapping, node = .cycle out isMapping) ∨
    (∃ xs, v = .list xs ∧
      ∀ x ∈ xs, ∃ item, Part item node ∧ build (level + 1) item fuel = .ok x) ∨
    (∃ es, v = .ofEntries es ∧
      ∀ e ∈ es, ∃ item, Part item node ∧ build (level + 1) item fuel = .ok e.2) ∨
    (∃ xs, v = .set xs) ∨
    (∃ xs, v = .list xs ∧ ∀ x ∈ xs, ∃ parts, x = .tuple parts) ∨
    ∃ kind content, scalar kind content = .ok v := by
  unfold build at h
  dsimp only at h
  split at h
  · cases h
    exact .inl ⟨rfl, _, _, rfl⟩
  · obtain ⟨xs, hall, rfl⟩ := map_eq_ok h
    refine .inr (.inl ⟨xs, rfl, fun x hx => ?_⟩)
    obtain ⟨item, hmem, hitem⟩ := List.mem_map.mp (mem_of_all hall x hx)
    exact ⟨item, .item hmem, hitem⟩
  · cases h
  · obtain ⟨es, hentries, rfl⟩ := map_eq_ok h
    refine .inr (.inr (.inl ⟨es, rfl, fun e he => ?_⟩))
    split at hentries
    · split at hentries
      · cases hentries
      · next hflat =>
        obtain ⟨entry, hmem, hentry⟩ := List.mem_map.mp (mem_of_all hentries e he)
        exact ⟨entry.2, .value hflat hmem, (both_eq_ok hentry).2⟩
    · cases hentries
  · obtain ⟨es, -, rfl⟩ := map_eq_ok h
    exact .inr (.inr (.inr (.inl ⟨_, rfl⟩)))
  · obtain ⟨xs, hall, rfl⟩ := map_eq_ok h
    refine .inr (.inr (.inr (.inr (.inl ⟨xs, rfl, tuples_of_all hall fun item x hx => ?_⟩))))
    split at hx
    · obtain ⟨p, -, rfl⟩ := map_eq_ok hx
      exact ⟨_, rfl⟩
    · cases hx
  · cases h
  · obtain ⟨xs, hall, rfl⟩ := map_eq_ok h
    refine .inr (.inr (.inr (.inr (.inl ⟨xs, rfl, tuples_of_all hall fun item x hx => ?_⟩))))
    split at hx
    · obtain ⟨p, -, rfl⟩ := map_eq_ok hx
      exact ⟨_, rfl⟩
    · cases hx
  · cases h
  · obtain ⟨content, hscalar⟩ := single_eq_ok (mapError_eq_ok h)
    exact .inr (.inr (.inr (.inr (.inr ⟨_, content, hscalar⟩))))

theorem distinctIfFit_build {fuel level : Nat} {node : Node} {v : Value}
    (h : build level node fuel = .ok v) : v.DistinctIfFit := by
  induction fuel generalizing level node v with
  | zero => cases h
  | succ fuel ih =>
    rcases build_cases h with ⟨rfl, -⟩ | ⟨xs, rfl, hitems⟩ | ⟨es, rfl, hentries⟩ | ⟨xs, rfl⟩ |
      ⟨xs, rfl, hpairs⟩ | ⟨kind, content, hscalar⟩
    · exact fun _ => trivial
    · refine distinctIfFit_list fun x hx => ?_
      obtain ⟨item, -, hitem⟩ := hitems x hx
      exact ih hitem
    · refine distinctIfFit_ofEntries fun e he => ?_
      obtain ⟨item, -, hitem⟩ := hentries e he
      exact ih hitem
    · intro hfit
      cases hfit
    · refine distinctIfFit_list fun x hx hfit => ?_
      obtain ⟨parts, rfl⟩ := hpairs x hx
      cases hfit
    · exact fun _ => (single_scalar hscalar).distinct

/-! ## Collections without merge keys -/

theorem split_of_plain {through : Nat} {entries : List (Node × Node)}
    (h : ∀ e ∈ entries, kindOf e.1 ≠ .merge) :
    split through entries = .ok ([], entries.map fun e => (asKey e.1, e.2)) := by
  induction entries with
  | nil =>
    rw [split]
    rfl
  | cons e entries ih =>
    obtain ⟨hhead, htail⟩ := List.forall_mem_cons.mp h
    rw [split, if_neg (by simpa using hhead), ih htail]
    rfl

/-- A mapping without merge keys becomes the mapping of what its keys and values become. -/
theorem build_mapping {entries : List (Node × Node)} (h : ∀ e ∈ entries, kindOf e.1 ≠ .merge)
    (level fuel : Nat) :
    build level (.mapping .mapping entries) (fuel + 1) =
      (all (entries.map fun e => both (checkKey (level + 1) (build (level + 1) (asKey e.1) fuel))
        (build (level + 1) e.2 fuel))).map .ofEntries := by
  have hflat : flatten entries = .ok (entries.map fun e => (asKey e.1, e.2)) := by
    rw [flatten, split_of_plain h]
    rfl
  conv_lhs => unfold build
  simp only [kindOf, hflat, List.map_map]
  rfl

/-- A mapping with different texts as keys becomes the record of what its values become. -/
theorem build_record {level fuel : Nat} {nodes : List (String × Node)}
    {fields : List (String × Value)} (hnames : (fields.map Prod.fst).Nodup)
    (h : List.Forall₂ (fun n f => n.1 = f.1 ∧ build (level + 1) n.2 (fuel + 1) = .ok f.2)
      nodes fields) :
    build level (.mapping .mapping (nodes.map fun n => (.scalar .text (RawText.ofString n.1), n.2)))
      (fuel + 2) = .ok (.record fields) := by
  let entry (n : String × Node) : Outcome (Value × Value) :=
    both (checkKey (level + 1)
        (build (level + 1) (asKey (.scalar .text (RawText.ofString n.1))) (fuel + 1)))
      (build (level + 1) n.2 (fuel + 1))
  have hentry : ∀ (n : String × Node) (f : String × Value), n.1 = f.1 →
      build (level + 1) n.2 (fuel + 1) = .ok f.2 → entry n = .ok (ofString f.1, f.2) := by
    intro n f hname hvalue
    simp only [entry, hname, hvalue]
    rfl
  have hall : all (nodes.map entry) = .ok (fields.map fun f => (ofString f.1, f.2)) := by
    clear hnames
    induction h with
    | nil => rfl
    | cons hfield _ ih =>
      rw [List.map_cons, all, ih, hentry _ _ hfield.1 hfield.2]
      rfl
  rw [build_mapping, List.map_map]
  · show (all (nodes.map entry)).map ofEntries = _
    rw [hall, Except.map, ofEntries_of_nodup (nodup_record hnames)]
    · rfl
    · rw [List.forall_mem_map]
      exact fun f _ => ⟨_, rfl⟩
  · rw [List.forall_mem_map]
    exact fun n _ => nofun

theorem build_sequence (items : List Node) (level fuel : Nat) :
    build level (.sequence .sequence items) (fuel + 1) =
      (all (items.map fun item => build (level + 1) item fuel)).map .list := rfl

end Yaml.Content

/-- **The value of a document has every key once**, if a payload can carry it. -/
theorem Yaml.load_distinct [Stack] {s : List Char} {v : Value} (h : Yaml.load s = .ok v)
    (hfit : v.offender? = none) : v.Distinct := by
  obtain ⟨node?, -, h⟩ := bind_eq_ok h
  cases node? with
  | none =>
    cases h
    trivial
  | some node => exact Content.distinctIfFit_build (mapError_eq_ok h) hfit

end Assemblage
