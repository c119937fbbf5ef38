import Assemblage.Proofs.World.Proper
import Assemblage.Proofs.World.Safety
import Mathlib.Algebra.Ring.Int.Defs

/-!
# The first offender of a value

`Value.sites` lists what a search passes over in the order of the document: every node in front of
what is in it, every key of a mapping in front of its value. The offender of a value is the first
of these that offends (`offender?_eq_findSome?`), and its place leads to that node, or to the
mapping of that key (`Site.isAt_of_mem`).

Main statement: there is no offender exactly if every node is one that a payload can carry, and
otherwise the first one is found with its place, and told unless that takes an integer with too many
digits (`offender?_first`). An integer of 4301 digits is such an offender (`offender?_untold`).
-/

namespace Assemblage
set_option autoImplicit false

namespace Value

/-! ## Nodes -/

/-- What stands in a value, the value itself included. A payload knows no collections but lists and
mappings, and only these are looked into. -/
inductive Contains : Value → Value → Prop where
  | self (v : Value) : Contains v v
  | item {x u : Value} {xs : List Value} (mem : x ∈ xs) (inside : Contains x u) :
    Contains (list xs) u
  | entry {k x u : Value} {es : List (Value × Value)} (mem : (k, x) ∈ es)
    (inside : Contains x u) : Contains (mapping es) u

/-- Whether a payload can carry a node, apart from what is in it. -/
def Carriable : Value → Prop
  | null | flag _ | text _ | list _ => True
  | integer n => -2 ^ 63 ≤ n ∧ n ≤ 2 ^ 64 - 1
  | real x => x.isFinite = true
  | mapping es => ∀ e ∈ es, ∃ t, e.1 = text t
  | bytes _ | date _ | moment _ | tuple _ | set _ | cycle => False

/-- A place leads from a value to a node: a number to an item, a name to the value of a key. -/
inductive Leads : Value → List Step → Value → Prop where
  | here (v : Value) : Leads v [] v
  | item {x u : Value} {xs : List Value} {i : Nat} {place : List Step} (get : xs[i]? = some x)
    (leads : Leads x place u) : Leads (list xs) (.number i :: place) u
  | entry {x u : Value} {es : List (Value × Value)} {t : RawText} {place : List Step}
    (mem : (text t, x) ∈ es) (leads : Leads x place u) :
    Leads (mapping es) (.name t :: place) u

theorem Leads.contains {v u : Value} {place : List Step} (h : Leads v place u) : Contains v u := by
  induction h with
  | here v => exact .self v
  | item get _ ih => exact .item (List.mem_of_getElem? get) ih
  | entry mem _ ih => exact .entry mem ih

theorem snd_eq_of_nodup {es : List (Value × Value)} (h : (es.map Prod.fst).Nodup) {k v w : Value}
    (hv : (k, v) ∈ es) (hw : (k, w) ∈ es) : v = w := by
  have heq := List.inj_on_of_nodup_map h hv hw rfl
  exact (Prod.mk.inj heq).2

/-- Where every mapping has its keys once, a place leads to one node at most. -/
theorem Leads.unique {v u u' : Value} {place : List Step} (hv : v.Distinct) (h : Leads v place u)
    (h' : Leads v place u') : u = u' := by
  induction h with
  | here v =>
    cases h'
    rfl
  | item get leads ih =>
    cases h' with
    | item get' leads' =>
      obtain rfl := Option.some.inj (get.symm.trans get')
      exact ih (distinctItems_iff.mp hv _ (List.mem_of_getElem? get)) leads'
  | entry mem leads ih =>
    cases h' with
    | entry mem' leads' =>
      obtain rfl := snd_eq_of_nodup hv.1 mem mem'
      exact ih (distinctEntries_iff.mp hv.2 _ mem) leads'

/-! ## The order of the document -/

/-- A node of a value, or a key of a mapping in it, which is at the place of the mapping. -/
inductive Site where
  | node (v : Value)
  | key (k : Value)

mutual

/-- The sites of a value with their places, in the order of the document. What is behind a key that
is no text has no place. -/
def sites : Value → List (List Step × Site)
  | list xs => ([], .node (list xs)) :: itemSites 0 xs
  | mapping es => ([], .node (mapping es)) :: entrySites es
  | v => [([], .node v)]

def itemSites (start : Nat) : List Value → List (List Step × Site)
  | [] => []
  | x :: xs => (sites x).map (fun s => (.number start :: s.1, s.2)) ++ itemSites (start + 1) xs

def entrySites : List (Value × Value) → List (List Step × Site)
  | [] => []
  | (text t, v) :: es =>
    ([], .key (text t)) :: (sites v).map (fun s => (.name t :: s.1, s.2)) ++ entrySites es
  | (k, _) :: es => ([], .key k) :: entrySites es

end

/-- What is wrong with a site itself. -/
def Site.offence? : Site → Option Offence
  | node (integer n) => if -2 ^ 63 ≤ n ∧ n ≤ 2 ^ 64 - 1 then none else some (.integer n)
  | node (real x) => if x.isFinite then none else some (.notFinite x)
  | node (date d) => some (.timestamp d.iso)
  | node (moment m) => some (.timestamp m.iso)
  | node (bytes b) => some (.kind (bytes b).kindName)
  | node (tuple xs) => some (.kind (tuple xs).kindName)
  | node (set xs) => some (.kind (set xs).kindName)
  | node cycle => some .endless
  | node _ => none
  | key (text _) => none
  | key k => some (.key k)

/-- A site that offends, with its place. -/
def offenderAt? (s : List Step × Site) : Option Offender := s.2.offence?.map fun o => ⟨s.1, o⟩

theorem isNarrow_iff (n : Int) : Json.isNarrow n = true ↔ -2 ^ 63 ≤ n ∧ n ≤ 2 ^ 64 - 1 := by
  rw [Json.isNarrow, Bool.and_eq_true, decide_eq_true_iff, decide_eq_true_iff]
  rfl

theorem findSome?_under (step : Step) (sites : List (List Step × Site)) :
    (sites.map fun s => (step :: s.1, s.2)).findSome? offenderAt? =
      (sites.findSome? offenderAt?).map (Offender.under step) := by
  induction sites with
  | nil => rfl
  | cons s sites ih =>
    rw [List.map_cons, List.findSome?_cons, List.findSome?_cons, ih]
    cases h : s.2.offence? with
    | none => simp [offenderAt?, h]
    | some o => simp [offenderAt?, h, Offender.under]

mutual

/-- **The offender is the first site that offends.** -/
theorem offender?_eq_findSome? : ∀ v : Value, v.offender? = v.sites.findSome? offenderAt?
  | null => rfl
  | flag _ => rfl
  | text _ => rfl
  | integer n => by
    have hnode :
        (sites (integer n)).findSome? offenderAt? = offenderAt? ([], .node (integer n)) :=
      List.findSome?_singleton
    rw [hnode, offender?, offenderAt?, Site.offence?]
    by_cases h : Json.isNarrow n = true
    · rw [if_pos h, if_pos ((isNarrow_iff n).mp h), Option.map_none]
    · rw [if_neg h, if_neg (mt (isNarrow_iff n).mpr h), Option.map_some]
  | real x => by
    cases h : x.isFinite <;> simp [offender?, sites, offenderAt?, Site.offence?, h]
  | date _ => rfl
  | moment _ => rfl
  | bytes _ => rfl
  | tuple _ => rfl
  | set _ => rfl
  | cycle => rfl
  | list xs => by
    rw [offender?, itemOffender?_eq_findSome? xs 0]
    rfl
  | mapping es => by
    rw [offender?, entryOffender?_eq_findSome? es]
    rfl

theorem itemOffender?_eq_findSome? : ∀ (xs : List Value) (start : Nat),
    itemOffender? start xs = (itemSites start xs).findSome? offenderAt?
  | [], _ => rfl
  | x :: xs, start => by
    rw [itemOffender?, itemSites, List.findSome?_append, findSome?_under,
      ← offender?_eq_findSome? x, ← itemOffender?_eq_findSome? xs (start + 1)]
    cases x.offender? <;> rfl

theorem entryOffender?_eq_findSome? : ∀ es : List (Value × Value),
    entryOffender? es = (entrySites es).findSome? offenderAt?
  | [] => rfl
  | (k, v) :: es => by
    cases k with
    | text t =>
      rw [entryOffender?, entrySites, List.findSome?_append, List.findSome?_cons, findSome?_under,
        ← offender?_eq_findSome? v, ← entryOffender?_eq_findSome? es]
      cases v.offender? <;> rfl
    | _ => rfl

end

/-! ## Where the sites are -/

/-- The place of a node leads to it, the place of a key to its mapping. -/
def Site.IsAt (v : Value) (place : List Step) : Site → Prop
  | node u => Leads v place u
  | key k => ∃ es x, Leads v place (mapping es) ∧ (k, x) ∈ es

theorem Site.IsAt.item {xs : List Value} {i : Nat} {x : Value} (hx : xs[i]? = some x)
    {place : List Step} {s : Site} (h : s.IsAt x place) :
    s.IsAt (list xs) (.number i :: place) := by
  cases s with
  | node u => exact Leads.item hx h
  | key k =>
    obtain ⟨es, y, hleads, hy⟩ := h
    exact ⟨es, y, Leads.item hx hleads, hy⟩

theorem Site.IsAt.entry {es : List (Value × Value)} {t : RawText} {x : Value}
    (hx : (text t, x) ∈ es) {place : List Step} {s : Site} (h : s.IsAt x place) :
    s.IsAt (mapping es) (.name t :: place) := by
  cases s with
  | node u => exact Leads.entry hx h
  | key k =>
    obtain ⟨fs, y, hleads, hy⟩ := h
    exact ⟨fs, y, Leads.entry hx hleads, hy⟩

mutual

theorem isAt_of_mem : ∀ (v : Value) (s : List Step × Site), s ∈ v.sites → s.2.IsAt v s.1
  | list xs, s, h => by
    rcases List.mem_cons.mp h with rfl | h
    · exact .here _
    · obtain ⟨i, x, place, hx, hplace, hat⟩ := isAt_of_mem_items xs 0 s h
      rw [hplace, Nat.zero_add]
      exact hat.item hx
  | mapping es, s, h => by
    rcases List.mem_cons.mp h with rfl | h
    · exact .here _
    · rcases isAt_of_mem_entries es s h with ⟨k, x, hx, rfl⟩ | ⟨t, x, place, hx, hplace, hat⟩
      · exact ⟨es, x, .here _, hx⟩
      · rw [hplace]
        exact hat.entry hx
  | null, s, h | flag _, s, h | integer _, s, h | real _, s, h | text _, s, h | bytes _, s, h
  | date _, s, h | moment _, s, h | tuple _, s, h | set _, s, h | cycle, s, h => by
    obtain rfl := List.mem_singleton.mp h
    exact .here _

theorem isAt_of_mem_items : ∀ (xs : List Value) (start : Nat) (s : List Step × Site),
    s ∈ itemSites start xs →
    ∃ (i : Nat) (x : Value) (place : List Step), xs[i]? = some x ∧
      s.1 = .number ((start + i : Nat) : Int) :: place ∧ s.2.IsAt x place
  | [], _, s, h => by cases h
  | x :: xs, start, s, h => by
    rcases List.mem_append.mp h with h | h
    · obtain ⟨r, hr, rfl⟩ := List.mem_map.mp h
      exact ⟨0, x, r.1, rfl, rfl, isAt_of_mem x r hr⟩
    · obtain ⟨i, y, place, hy, hplace, hat⟩ := isAt_of_mem_items xs (start + 1) s h
      refine ⟨i + 1, y, place, hy, ?_, hat⟩
      rw [hplace, Nat.add_right_comm, Nat.add_assoc]

theorem isAt_of_mem_entries : ∀ (es : List (Value × Value)) (s : List Step × Site),
    s ∈ entrySites es →
    (∃ k x, (k, x) ∈ es ∧ s = ([], .key k)) ∨
      ∃ t x place, (text t, x) ∈ es ∧ s.1 = .name t :: place ∧ s.2.IsAt x place
  | [], s, h => by cases h
  | (k, v) :: es, s, h => by
    have hlater : s ∈ entrySites es →
        (∃ l x, (l, x) ∈ (k, v) :: es ∧ s = ([], .key l)) ∨
          ∃ t x place, (text t, x) ∈ (k, v) :: es ∧ s.1 = .name t :: place ∧
            s.2.IsAt x place := by
      intro h
      rcases isAt_of_mem_entries es s h with ⟨l, x, hx, hs⟩ | ⟨t, x, place, hx, hplace, hat⟩
      · exact .inl ⟨l, x, List.mem_cons_of_mem _ hx, hs⟩
      · exact .inr ⟨t, x, place, List.mem_cons_of_mem _ hx, hplace, hat⟩
    cases k with
    | text t =>
      rw [entrySites, List.cons_append, List.mem_cons, List.mem_append] at h
      rcases h with rfl | h | h
      · exact .inl ⟨text t, v, List.mem_cons_self, rfl⟩
      · obtain ⟨r, hr, rfl⟩ := List.mem_map.mp h
        exact .inr ⟨t, v, r.1, List.mem_cons_self, rfl, isAt_of_mem v r hr⟩
      · exact hlater h
    | _ =>
      rcases List.mem_cons.mp h with rfl | h
      · exact .inl ⟨_, v, List.mem_cons_self, rfl⟩
      · exact hlater h

end

/-! ## What a payload can carry -/

/-- How a site offends. -/
inductive Site.Offends : Site → Offence → Prop where
  | integer (n : Int) : Offends (.node (integer n)) (.integer n)
  | notFinite (x : Binary64) : Offends (.node (real x)) (.notFinite x)
  | date (d : Date) : Offends (.node (date d)) (.timestamp d.iso)
  | moment (m : Moment) : Offends (.node (moment m)) (.timestamp m.iso)
  | kind (v : Value) : Offends (.node v) (.kind v.kindName)
  | endless : Offends (.node cycle) .endless
  | key (k : Value) : Offends (.key k) (.key k)

theorem Site.offends {s : Site} {o : Offence} (h : s.offence? = some o) : s.Offends o := by
  cases s with
  | node u =>
    cases u with
    | integer n =>
      rw [offence?] at h
      split at h <;> cases h
      exact .integer n
    | real x =>
      rw [offence?] at h
      split at h <;> cases h
      exact .notFinite x
    | date d =>
      cases h
      exact .date d
    | moment m =>
      cases h
      exact .moment m
    | bytes | tuple | set =>
      cases h
      exact .kind _
    | cycle =>
      cases h
      exact .endless
    | _ => cases h
  | key k =>
    cases k <;> cases h <;> exact .key _

theorem offence?_node_eq_none {u : Value} (hu : ∀ es, u ≠ mapping es) :
    (Site.node u).offence? = none ↔ u.Carriable := by
  cases u with
  | mapping es => exact absurd rfl (hu es)
  | integer n => simp [Site.offence?, Carriable]
  | real x => simp [Site.offence?, Carriable]
  | _ => simp [Site.offence?, Carriable]

theorem offence?_key_eq_none {k : Value} : (Site.key k).offence? = none ↔ ∃ t, k = text t := by
  cases k <;> simp [Site.offence?]

theorem self_mem_sites (v : Value) : ([], .node v) ∈ v.sites := by
  cases v <;> simp [sites]

theorem carriable_of_contains {v u : Value} (h : Contains v u) (hv : v.offender? = none) :
    u.Carriable := by
  induction h with
  | self v =>
    by_cases hmapping : ∃ es, v = mapping es
    · obtain ⟨es, rfl⟩ := hmapping
      exact fun e he => (entryOffender?_eq_none.mp hv e he).1
    · rw [offender?_eq_findSome?, List.findSome?_eq_none_iff] at hv
      have hself := Option.map_eq_none_iff.mp (hv _ (self_mem_sites v))
      exact (offence?_node_eq_none fun es hes => hmapping ⟨es, hes⟩).mp hself
  | item mem _ ih => exact ih (itemOffender?_eq_none.mp hv _ mem)
  | entry mem _ ih => exact ih (entryOffender?_eq_none.mp hv _ mem).2

/-- A site that offends is a node that no payload can carry, or a key of one. -/
theorem exists_not_carriable {v : Value} {place : List Step} {s : Site} (hat : s.IsAt v place)
    (hs : s.offence? ≠ none) : ∃ u, Contains v u ∧ ¬u.Carriable := by
  cases s with
  | node u =>
    refine ⟨u, hat.contains, mt (offence?_node_eq_none ?_).mpr hs⟩
    rintro es rfl
    exact hs rfl
  | key k =>
    obtain ⟨es, x, hleads, hx⟩ := hat
    exact ⟨mapping es, hleads.contains, fun hall => hs (offence?_key_eq_none.mpr (hall _ hx))⟩

theorem offender?_eq_some {v : Value} {o : Offender} (h : v.offender? = some o) :
    ∃ before site after, v.sites = before ++ (o.place, site) :: after ∧
      (∀ s ∈ before, s.2.offence? = none) ∧ site.offence? = some o.offence ∧
      site.IsAt v o.place := by
  rw [offender?_eq_findSome?, List.findSome?_eq_some_iff] at h
  obtain ⟨before, ⟨place, site⟩, after, hsites, hsite, hbefore⟩ := h
  obtain ⟨offence, hoffence, rfl⟩ := Option.map_eq_some_iff.mp hsite
  refine ⟨before, site, after, hsites, fun s hs => ?_, hoffence, ?_⟩
  · exact Option.map_eq_none_iff.mp (hbefore s hs)
  · refine isAt_of_mem v (place, site) ?_
    rw [hsites]
    exact List.mem_append_right _ List.mem_cons_self

theorem offender?_eq_none {v : Value} :
    v.offender? = none ↔ ∀ u, Contains v u → u.Carriable := by
  refine ⟨fun h u hu => carriable_of_contains hu h, fun h => ?_⟩
  cases ho : v.offender? with
  | none => rfl
  | some o =>
    obtain ⟨_, site, _, _, _, hsite, hat⟩ := offender?_eq_some ho
    obtain ⟨u, hu, hnot⟩ := exists_not_carriable hat (by rw [hsite]; exact Option.some_ne_none _)
    exact absurd (h u hu) hnot

/-! ## Messages -/

theorem placeText_eq (root : String) (place : List Step) :
    Offender.placeText root place = root ++ String.join (place.map Offender.stepText) := by
  unfold Offender.placeText
  induction place generalizing root with
  | nil => simp
  | cons step place ih =>
    rw [List.foldl_cons, ih, List.map_cons, String.join_cons, String.append_assoc]

/-- A message is the place, and behind it what is said of the offence wherever it is. -/
theorem message?_eq (root : String) (o : Offender) :
    o.message? root = o.offence.text?.map fun said =>
      root ++ String.join (o.place.map Offender.stepText) ++ ": " ++ said := by
  rw [Offender.message?, placeText_eq]

/-- The integers in the quotation of a value. -/
inductive Quotes : Value → Int → Prop where
  | integer (n : Int) : Quotes (integer n) n
  | item {x : Value} {xs : List Value} {n : Int} (mem : x ∈ xs) (h : Quotes x n) :
    Quotes (list xs) n
  | part {x : Value} {xs : List Value} {n : Int} (mem : x ∈ xs) (h : Quotes x n) :
    Quotes (tuple xs) n
  | member {x : Value} {xs : List Value} {n : Int} (mem : x ∈ xs) (h : Quotes x n) :
    Quotes (set xs) n
  | key {k v : Value} {es : List (Value × Value)} {n : Int} (mem : (k, v) ∈ es) (h : Quotes k n) :
    Quotes (mapping es) n
  | entry {k v : Value} {es : List (Value × Value)} {n : Int} (mem : (k, v) ∈ es)
    (h : Quotes v n) : Quotes (mapping es) n

mutual

theorem quotes_of_not_quotable : ∀ v : Value, v.isQuotable = false →
    ∃ n, Quotes v n ∧ Text.fitsDecimals n = false
  | integer n, h => ⟨n, .integer n, h⟩
  | list xs, h => by
    obtain ⟨x, hx, n, hn, hlong⟩ := quotes_of_not_areQuotable xs h
    exact ⟨n, .item hx hn, hlong⟩
  | tuple xs, h => by
    obtain ⟨x, hx, n, hn, hlong⟩ := quotes_of_not_areQuotable xs h
    exact ⟨n, .part hx hn, hlong⟩
  | set xs, h => by
    obtain ⟨x, hx, n, hn, hlong⟩ := quotes_of_not_areQuotable xs h
    exact ⟨n, .member hx hn, hlong⟩
  | mapping es, h => by
    obtain ⟨e, he, n, hn, hlong⟩ := quotes_of_not_areQuotableEntries es h
    exact ⟨n, hn.elim (.key he) (.entry he), hlong⟩

theorem quotes_of_not_areQuotable : ∀ xs : List Value, areQuotable xs = false →
    ∃ x ∈ xs, ∃ n, Quotes x n ∧ Text.fitsDecimals n = false
  | x :: xs, h => by
    rw [areQuotable, Bool.and_eq_false_iff] at h
    rcases h with h | h
    · exact ⟨x, List.mem_cons_self, quotes_of_not_quotable x h⟩
    · obtain ⟨y, hy, hrest⟩ := quotes_of_not_areQuotable xs h
      exact ⟨y, List.mem_cons_of_mem _ hy, hrest⟩

theorem quotes_of_not_areQuotableEntries : ∀ es : List (Value × Value),
    areQuotableEntries es = false →
    ∃ e ∈ es, ∃ n, (Quotes e.1 n ∨ Quotes e.2 n) ∧ Text.fitsDecimals n = false
  | (k, v) :: es, h => by
    rw [areQuotableEntries, Bool.and_eq_false_iff, Bool.and_eq_false_iff] at h
    rcases h with (h | h) | h
    · obtain ⟨n, hn, hlong⟩ := quotes_of_not_quotable k h
      exact ⟨(k, v), List.mem_cons_self, n, .inl hn, hlong⟩
    · obtain ⟨n, hn, hlong⟩ := quotes_of_not_quotable v h
      exact ⟨(k, v), List.mem_cons_self, n, .inr hn, hlong⟩
    · obtain ⟨e, he, hrest⟩ := quotes_of_not_areQuotableEntries es h
      exact ⟨e, List.mem_cons_of_mem _ he, hrest⟩

end

theorem areQuotable_iff {xs : List Value} :
    areQuotable xs = true ↔ ∀ x ∈ xs, x.isQuotable = true := by
  induction xs with
  | nil => simp [areQuotable]
  | cons x xs ih => simp [areQuotable, ih]

theorem areQuotableEntries_iff {es : List (Value × Value)} :
    areQuotableEntries es = true ↔ ∀ e ∈ es, e.1.isQuotable = true ∧ e.2.isQuotable = true := by
  induction es with
  | nil => simp [areQuotableEntries]
  | cons e es ih => simp [areQuotableEntries, ih]

theorem fitsDecimals_of_quotes {v : Value} {n : Int} (hn : Quotes v n) (h : v.isQuotable = true) :
    Text.fitsDecimals n = true := by
  induction hn with
  | integer n => exact h
  | item mem _ ih | part mem _ ih | member mem _ ih => exact ih (areQuotable_iff.mp h _ mem)
  | key mem _ ih => exact ih (areQuotableEntries_iff.mp h _ mem).1
  | entry mem _ ih => exact ih (areQuotableEntries_iff.mp h _ mem).2

/-- What keeps an offence from being told: an integer in it. -/
inductive Unwritable : Offence → Int → Prop where
  | integer {n : Int} (long : Text.decimalLimit < (Nat.toDigits 10 n.natAbs).length) :
    Unwritable (.integer n) n
  | key {k : Value} {n : Int} (h : Quotes k n)
    (long : Text.decimalLimit < (Nat.toDigits 10 n.natAbs).length) : Unwritable (.key k) n

theorem fitsDecimals_eq_false {n : Int} :
    Text.fitsDecimals n = false ↔ Text.decimalLimit < (Nat.toDigits 10 n.natAbs).length := by
  rw [Text.fitsDecimals, decide_eq_false_iff_not, Nat.not_le]

/-- An offence that has an end is told unless an integer in it has too many digits. -/
theorem text?_eq_none {o : Offence} (hend : o ≠ .endless) :
    o.text? = none ↔ ∃ n, Unwritable o n := by
  cases o with
  | integer n =>
    rw [Offence.text?]
    cases hfits : Text.fitsDecimals n with
    | true =>
      simp only [if_true, reduceCtorEq, false_iff, not_exists]
      rintro _ ⟨hlong⟩
      rw [fitsDecimals_eq_false.mpr hlong] at hfits
      cases hfits
    | false => simpa using ⟨n, .integer (fitsDecimals_eq_false.mp hfits)⟩
  | key k =>
    rw [Offence.text?]
    cases hquotable : k.isQuotable with
    | true =>
      simp only [if_true, reduceCtorEq, false_iff, not_exists]
      rintro n (hlong | ⟨hn, hlong⟩)
      have hfits := fitsDecimals_of_quotes hn hquotable
      rw [fitsDecimals_eq_false.mpr hlong] at hfits
      cases hfits
    | false =>
      obtain ⟨n, hn, hlong⟩ := quotes_of_not_quotable k hquotable
      simpa using ⟨n, .key hn (fitsDecimals_eq_false.mp hlong)⟩
  | endless => exact absurd rfl hend
  | notFinite | timestamp | kind =>
    simp only [Offence.text?, reduceCtorEq, false_iff, not_exists]
    rintro n ⟨⟩

/-- What does not contain itself is searched to an end. -/
theorem not_endless_of_finite {v : Value} (hfinite : ¬Contains v cycle) {o : Offender}
    (h : v.offender? = some o) : o.offence ≠ .endless := by
  obtain ⟨_, site, _, _, _, hsite, hat⟩ := offender?_eq_some h
  intro hend
  rw [hend] at hsite
  cases Site.offends hsite
  exact hfinite hat.contains

/-! ## Room for messages -/

mutual

/-- How many collections stand around one another at most, those of keys included: a key is quoted
as far down as it is. -/
def reach : Value → Nat
  | list xs | tuple xs | set xs => 1 + reachItems xs
  | mapping es => 1 + reachEntries es
  | _ => 0

def reachItems : List Value → Nat
  | [] => 0
  | x :: xs => max (reach x) (reachItems xs)

def reachEntries : List (Value × Value) → Nat
  | [] => 0
  | (k, v) :: es => max (max (reach k) (reach v)) (reachEntries es)

end

mutual

theorem depth_le_reach : ∀ v : Value, v.depth ≤ v.reach
  | list xs | tuple xs | set xs => Nat.add_le_add_left (depthItems_le_reachItems xs) 1
  | mapping es => Nat.add_le_add_left (depthEntries_le_reachEntries es) 1
  | null | flag _ | integer _ | real _ | text _ | bytes _ | date _ | moment _ | cycle =>
    Nat.le_refl 0

theorem depthItems_le_reachItems : ∀ xs : List Value, depthItems xs ≤ reachItems xs
  | [] => Nat.le_refl 0
  | x :: xs => by
    have hx := depth_le_reach x
    have hxs := depthItems_le_reachItems xs
    rw [depthItems, reachItems]
    omega

theorem depthEntries_le_reachEntries : ∀ es : List (Value × Value),
    depthEntries es ≤ reachEntries es
  | [] => Nat.le_refl 0
  | (k, v) :: es => by
    have hv := depth_le_reach v
    have hes := depthEntries_le_reachEntries es
    rw [depthEntries, reachEntries]
    omega

end

/-! ## The main statement -/

/-- **The search finds the first offender, and there is one unless a payload can carry all.** Take
a value with an end that the stack has room for, its keys included. Nothing is found exactly if
every node of it can be carried. If something is found, it is the first site in the order of the
document that offends, and its place leads to that node, or to the mapping of that key, and to no
other node. The message names the place step by step behind the name of the whole, and says what
offends; there is none exactly if it would write an integer of more than 4300 digits. -/
theorem offender?_first [Stack] {v : Value} (hfinite : ¬Contains v cycle)
    (hroom : v.reach < Stack.values) :
    (v.found? = none ↔ ∀ u, Contains v u → u.Carriable) ∧
    ∀ o, v.found? = some o →
      (∃ before site after, v.sites = before ++ (o.place, site) :: after ∧
        (∀ s ∈ before, s.2.offence? = none) ∧ site.offence? = some o.offence ∧
        site.IsAt v o.place) ∧
      (v.Distinct → ∀ u u', Leads v o.place u → Leads v o.place u' → u = u') ∧
      ∀ root, (o.message? root = none ↔ ∃ n, Unwritable o.offence n) ∧
        ∀ said, o.offence.text? = some said → o.message? root =
          some (root ++ String.join (o.place.map Offender.stepText) ++ ": " ++ said) := by
  rw [found?_of_depth (Nat.lt_of_le_of_lt v.depth_le_reach hroom)]
  refine ⟨offender?_eq_none, fun o ho => ⟨offender?_eq_some ho, ?_, fun root => ⟨?_, ?_⟩⟩⟩
  · exact fun hdistinct u u' hu hu' => hu.unique hdistinct hu'
  · rw [message?_eq, Option.map_eq_none_iff, text?_eq_none (not_endless_of_finite hfinite ho)]
  · intro said hsaid
    rw [message?_eq, hsaid, Option.map_some]

/-- The greatest integer can be carried; behind it, a key that is no text is met before its value
and before a date further down. -/
theorem offender?_first_key :
    let inner := mapping [(ofString "b", integer 18446744073709551615), (integer 1, real .nan)]
    let v := mapping [(ofString "a", list [flag true, inner]), (ofString "c", date ⟨2024, 1, 1⟩)]
    ¬Contains v cycle ∧ v.reach < Stack.values ∧
      ∃ o, v.found? = some o ∧ Leads v o.place inner ∧ (∀ u, Leads v o.place u → u = inner) ∧
        o.message? "scene" = some "scene.a[1]: mapping key 1 must be a string" := by
  intro inner v
  have hinner : ¬Contains inner cycle := by
    intro h
    cases (show Contains (mapping _) cycle from h) with
    | entry mem inside =>
      rcases List.mem_pair.mp mem with hc | hc <;> cases hc <;> cases inside
  have hfinite : ¬Contains v cycle := by
    intro h
    cases (show Contains (mapping _) cycle from h) with
    | entry mem inside =>
      rcases List.mem_pair.mp mem with hc | hc <;> cases hc
      · cases inside with
        | item mem inside =>
          rcases List.mem_pair.mp mem with rfl | rfl
          · cases inside
          · exact hinner inside
      · cases inside
  have hroom : v.reach < Stack.values := by decide
  have hdistinct : v.Distinct := by
    refine ⟨?_, ⟨trivial, ⟨?_, trivial, trivial, trivial⟩, trivial⟩, trivial, trivial⟩
    · exact @nodup_record [("a", null), ("c", null)] (by decide)
    · simp [ofString]
  have hoffender : v.found? =
      some ⟨[.name (RawText.ofString "a"), .number 1], .key (integer 1)⟩ := by
    rw [found?_of_depth (by decide)]
    rfl
  have hleads : Leads v [.name (RawText.ofString "a"), .number 1] inner :=
    .entry List.mem_cons_self (.item (i := 1) rfl (.here inner))
  obtain ⟨-, honly, hmessage⟩ := (offender?_first hfinite hroom).2 _ hoffender
  refine ⟨hfinite, hroom, _, hoffender, hleads, fun u hu => honly hdistinct u inner hu hleads, ?_⟩
  rw [(hmessage "scene").2 "mapping key 1 must be a string" (by decide +kernel)]
  decide +kernel

/-- The least integer with 4301 digits: it is found, and there is no message for it. -/
theorem offender?_untold :
    found? (integer (10 ^ Text.decimalLimit)) = some ⟨[], .integer (10 ^ Text.decimalLimit)⟩ ∧
      Offender.message? "scene" ⟨[], .integer (10 ^ Text.decimalLimit)⟩ = none := by
  have hwide : Json.isNarrow (10 ^ Text.decimalLimit) = false := by decide +kernel
  have hlong : Text.fitsDecimals (10 ^ Text.decimalLimit) = false := by decide +kernel
  constructor
  · rw [found?_of_depth (by decide), offender?, hwide]
    rfl
  · rw [message?_eq, Offence.text?, hlong]
    rfl

end Value

end Assemblage
