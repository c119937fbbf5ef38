import Assemblage.Proofs.Schema
import Assemblage.World.Basic

/-!
# Proper worlds

`World.Proper` says what every world of the program is: its capacity is not negative, and no key
stands twice in its components or in a mapping inside them. Every world that passed its check is
proper (`proper_of_check`).
-/

namespace Assemblage
set_option autoImplicit false

namespace Entity

mutual

/-- Whether no key stands twice in an entity, at any depth. -/
def Proper : Entity → Prop
  | ⟨_, _, components, children⟩ =>
    (components.map Prod.fst).Nodup ∧ (∀ c ∈ components, c.2.Distinct) ∧ ProperAll children

def ProperAll : List Entity → Prop
  | [] => True
  | e :: es => Proper e ∧ ProperAll es

end

end Entity

/-- Whether a world is one that a program can hold: its mappings have every key once, and its
capacity has passed its check. -/
structure World.Proper (w : World) : Prop where
  capacity : ∀ n ∈ w.capacity, 0 ≤ n
  entities : Entity.ProperAll w.entities

/-! ## Checked worlds -/

namespace Value

theorem mem_of_lookup {es : List (Value × Value)} {key : String} {v : Value}
    (h : lookup key es = some v) : ∃ k, (k, v) ∈ es := by
  induction es with
  | nil => cases h
  | cons e es ih =>
    obtain ⟨k, w⟩ := e
    by_cases hk : k = text (RawText.ofString key)
    · subst hk
      rw [lookup_cons_self] at h
      exact ⟨_, by rw [← Option.some.inj h]; exact List.mem_cons_self⟩
    · rw [lookup_cons_of_ne hk] at h
      obtain ⟨l, hl⟩ := ih h
      exact ⟨l, List.mem_cons_of_mem _ hl⟩

theorem distinct_of_lookup {es : List (Value × Value)} (h : DistinctEntries es) {key : String}
    {v : Value} (hv : lookup key es = some v) : v.Distinct := by
  obtain ⟨k, hk⟩ := mem_of_lookup hv
  exact distinctEntries_iff.mp h _ hk

theorem distinctItems_of_items? {v : Value} {xs : List Value} (hv : v.Distinct)
    (h : Schema.items? v = some xs) : DistinctItems xs := by
  cases v with
  | list ys | tuple ys | set ys =>
    cases h
    exact hv
  | _ => cases h

end Value

namespace Entity

theorem properAll_of_forall₂ {levels : Nat} {xs : List Value} {es : List Entity}
    (h : List.Forall₂ (fun x e => check levels x = .ok e) xs es)
    (hcheck : ∀ x ∈ xs, ∀ e, check levels x = .ok e → e.Proper) : ProperAll es := by
  induction h with
  | nil => trivial
  | cons hx _ ih =>
    exact ⟨hcheck _ List.mem_cons_self _ hx, ih fun x hx => hcheck x (List.mem_cons_of_mem _ hx)⟩

theorem properAll_of_listOf {levels : Nat}
    (hcheck : ∀ (x : Value) (e : Entity), x.Distinct → check levels x = .ok e → e.Proper)
    {v : Value} (hv : v.Distinct) {es : List Entity}
    (h : Schema.listOf (check levels) v = .ok es) : ProperAll es := by
  obtain ⟨xs, hxs, hall⟩ := Schema.listOf_eq_ok h
  have hitems := Value.distinctItems_iff.mp (Value.distinctItems_of_items? hv hxs)
  exact properAll_of_forall₂ hall fun x hx e he => hcheck x e (hitems x hx) he

/-- An entity is checked field by field. -/
theorem check_mapping_eq_ok {levels : Nat} {fs : List (Value × Value)} {e : Entity} :
    check (levels + 1) (.mapping fs) = .ok e ↔
      Schema.defaulted fs "name" none (Schema.optional Schema.text) = .ok e.name ∧
      Schema.defaulted fs "enabled" true Schema.flag = .ok e.enabled ∧
      Schema.defaulted fs "components" [] Schema.dictionary = .ok e.components ∧
      Schema.defaulted fs "children" [] (Schema.listOf (check levels)) = .ok e.children := by
  constructor
  · intro h
    obtain ⟨_, children, hfirst₃, hchildren, rfl⟩ := Checked.seq_eq_ok.mp h
    obtain ⟨_, components, hfirst₂, hcomponents, rfl⟩ := Checked.seq_eq_ok.mp hfirst₃
    obtain ⟨_, enabled, hfirst₁, henabled, rfl⟩ := Checked.seq_eq_ok.mp hfirst₂
    obtain ⟨name, hname, rfl⟩ := Checked.map_eq_ok.mp hfirst₁
    exact ⟨hname, henabled, hcomponents, hchildren⟩
  · rintro ⟨hname, henabled, hcomponents, hchildren⟩
    cases e
    rw [check, Schema.record, hname, henabled, hcomponents, hchildren]
    rfl

/-- What passed the check of an entity: its components passed as a dictionary and its children as
entities with one level less, unless they are not there. -/
theorem check_eq_ok {levels : Nat} {v : Value} {e : Entity} (h : check (levels + 1) v = .ok e) :
    ∃ fs, v = .mapping fs ∧
      (e.components = [] ∨ ∃ u, Value.lookup "components" fs = some u ∧
        Schema.dictionary u = .ok e.components) ∧
      (e.children = [] ∨ ∃ u, Value.lookup "children" fs = some u ∧
        Schema.listOf (check levels) u = .ok e.children) := by
  cases v with
  | mapping fs =>
    obtain ⟨-, -, hcomponents, hchildren⟩ := check_mapping_eq_ok.mp h
    exact ⟨fs, rfl, Schema.defaulted_eq_ok hcomponents, Schema.defaulted_eq_ok hchildren⟩
  | _ => cases h

theorem proper_of_check (levels : Nat) (v : Value) (e : Entity) (hv : v.Distinct)
    (h : check levels v = .ok e) : e.Proper := by
  induction levels generalizing v e with
  | zero => cases h
  | succ levels ih =>
    obtain ⟨fs, rfl, hcomponents, hchildren⟩ := check_eq_ok h
    obtain ⟨name, enabled, components, children⟩ := e
    have hkeys : (components.map Prod.fst).Nodup ∧ ∀ c ∈ components, c.2.Distinct := by
      rcases hcomponents with rfl | ⟨w, hw, hdictionary⟩
      · simp
      · obtain ⟨hnodup, es, rfl, hvalues⟩ := Schema.nodup_dictionary hdictionary
        have hdistinct := Value.distinctEntries_iff.mp (Value.distinct_of_lookup hv.2 hw).2
        refine ⟨hnodup, ?_⟩
        intro c hc
        obtain ⟨k, hk⟩ := hvalues c hc
        exact hdistinct _ hk
    have hforest : ProperAll children := by
      rcases hchildren with rfl | ⟨w, hw, hlist⟩
      · trivial
      · exact properAll_of_listOf ih (Value.distinct_of_lookup hv.2 hw) hlist
    exact ⟨hkeys.1, hkeys.2, hforest⟩

end Entity

namespace World

/-- The check of a capacity. -/
def checkCapacity : Value → Checked (Option Int) :=
  Schema.optional fun v => (Schema.integer v).andThen (Schema.atLeast 0)

theorem check_mapping_eq_ok {fs : List (Value × Value)} {w : World} :
    check (.mapping fs) = .ok w ↔
      Schema.defaulted fs "max_capacity" none checkCapacity = .ok w.capacity ∧
      Schema.defaulted fs "entities" [] (Schema.listOf (Entity.check Entity.deepest)) =
        .ok w.entities := by
  constructor
  · intro h
    obtain ⟨_, entities, hfields, hentities, rfl⟩ := Checked.seq_eq_ok.mp h
    obtain ⟨capacity, hcapacity, rfl⟩ := Checked.map_eq_ok.mp hfields
    exact ⟨hcapacity, hentities⟩
  · rintro ⟨hcapacity, hentities⟩
    unfold checkCapacity at hcapacity
    rw [check, Schema.record, hcapacity, hentities]
    rfl

/-- What passed the check of a world: its capacity passed as an integer that is not negative, and
its entities as a list of entities, unless they are not there. -/
theorem check_eq_ok {v : Value} {w : World} (h : check v = .ok w) :
    ∃ fs, v = .mapping fs ∧ (∀ n ∈ w.capacity, 0 ≤ n) ∧
      (w.entities = [] ∨ ∃ u, Value.lookup "entities" fs = some u ∧
        Schema.listOf (Entity.check Entity.deepest) u = .ok w.entities) := by
  cases v with
  | mapping fs =>
    obtain ⟨hcapacity, hentities⟩ := check_mapping_eq_ok.mp h
    refine ⟨fs, rfl, ?_, Schema.defaulted_eq_ok hentities⟩
    intro n hn
    rw [hn] at hcapacity
    rcases Schema.defaulted_eq_ok hcapacity with hnone | ⟨u, -, hcheck⟩
    · cases hnone
    · obtain ⟨m, -, hleast⟩ := Checked.andThen_eq_ok.mp (Schema.optional_eq_ok hcheck)
      exact (Schema.atLeast_eq_ok hleast).2
  | _ => cases h

end World

/-- **Every checked world is proper**, if the mappings that it was checked from have every key
once. -/
theorem World.proper_of_check {v : Value} {w : World} (hv : v.Distinct)
    (h : World.check v = .ok w) : w.Proper := by
  obtain ⟨fs, rfl, hcapacity, hentities⟩ := World.check_eq_ok h
  refine ⟨hcapacity, ?_⟩
  rcases hentities with hnone | ⟨u, hu, hlist⟩
  · rw [hnone]
    trivial
  · exact Entity.properAll_of_listOf (Entity.proper_of_check _)
      (Value.distinct_of_lookup hv.2 hu) hlist

end Assemblage
