import Assemblage.Proofs.Text.Braces
import Assemblage.SourceUnit
import Mathlib.Algebra.Ring.Int.Defs

/-!
# The scopes of a source unit

The text of a unit is a row of pieces (`SourceUnit.pieces`): lines of the scaffolding, which the
unit writes itself, and texts that it only passes on. Where every text that is passed on is balanced
and no name or directive has a brace (`SourceUnit.Braced`), the scaffolding alone decides at which
depth a piece stands.

Main statement: such a unit is written as a balanced text in which every piece starts a line at the
depth of its scope, and every namespace but the root is one block (`SourceUnit.scoped_of_braced`).
-/

namespace Assemblage
set_option autoImplicit false
open Assemblage.Braces

/-! ## Pieces -/

/-- A piece of the text of a unit. The first five are the lines of the scaffolding. -/
inductive Piece where
  | directive (text : String)
  /-- The empty line behind the directives. -/
  | blank
  /-- The line that names a namespace. -/
  | heading (name : String)
  /-- The line of the brace that opens a namespace. -/
  | opening (name : String)
  /-- The line of the brace that closes a namespace. -/
  | closing (name : String)
  | marker (text : String)
  /-- A body of a namespace. -/
  | body (name text : String)
  | declaration (text : String)

namespace Piece

def write : Piece → String
  | directive text => text ++ "\n"
  | blank => "\n"
  | heading name => "namespace " ++ name ++ "\n"
  | opening _ => "\x7b\n"
  | closing _ => "\x7d\n"
  | marker text | body _ text | declaration text => SourceUnit.terminated text

/-- The characters of pieces in a row. -/
def chars (ps : List Piece) : List Char := ps.flatMap fun p => p.write.toList

/-- The namespace that a piece belongs to, if it is part of a block or a body. -/
def scope? : Piece → Option String
  | heading name | opening name | closing name | body name _ => some name
  | _ => none

/-- How deep the texts in a namespace stand; all namespaces lie in the root. -/
def inner (root name : String) : Int := if name = root then 1 else 2

/-- The depth in front of a piece. -/
def level (root : String) : Piece → Int
  | directive _ | blank => 0
  | heading name | opening name => inner root name - 1
  | closing name | body name _ => inner root name
  | marker _ | declaration _ => inner root root

/-- The pieces of a block: its name, its braces, and what stands between them. -/
def block (name : String) (ps : List Piece) : List Piece :=
  heading name :: opening name :: ps ++ [closing name]

/-- The pieces of a scope: its bodies, in a block if it is not the root. -/
def ofScope (root : String) (s : Scope) : List Piece :=
  let bodies := s.bodies.map (body s.name)
  if s.name = root then bodies else block s.name bodies

theorem chars_append (ps qs : List Piece) : chars (ps ++ qs) = chars ps ++ chars qs :=
  List.flatMap_append

theorem chars_block (name : String) (ps : List Piece) :
    chars (block name ps) = (heading name).write.toList ++
      '\x7b' :: ('\n' :: chars ps) ++ '\x7d' :: ['\n'] := by
  simp [chars, block, write]

theorem chars_flatMap {α : Type} (f : α → List Piece) (xs : List α) :
    chars (xs.flatMap f) = xs.flatMap fun x => chars (f x) :=
  List.flatMap_assoc

end Piece

namespace SourceUnit

/-- What stands in the block of the root. -/
def contents (u : SourceUnit) : List Piece :=
  .marker u.marker :: u.scopes.flatMap (Piece.ofScope u.root) ++ u.epilogue.map .declaration

/-- The pieces of the text of a unit. -/
def pieces (u : SourceUnit) : List Piece :=
  u.directives.map .directive ++ .blank :: Piece.block u.root u.contents

theorem join_pieces (ps : List Piece) :
    (String.join (ps.map Piece.write)).toList = Piece.chars ps := by
  rw [String.toList_join, List.flatMap_map]
  rfl

theorem writeScope_eq (root : String) (s : Scope) :
    writeScope root s = String.join ((Piece.ofScope root s).map Piece.write) := by
  have hbodies : (s.bodies.map (Piece.body s.name)).map Piece.write = s.bodies.map terminated := by
    rw [List.map_map]
    rfl
  unfold writeScope Piece.ofScope
  by_cases h : s.name = root
  · simp only [h, if_true]
    rw [← hbodies, h]
  · simp only [h, if_false, Piece.block, List.map_append, List.map_cons, hbodies, List.map_nil,
      String.join_append, String.join_cons, String.join_nil, Piece.write, openBlock, closeBlock,
      String.append_empty, String.append_assoc]
    rfl

/-- The text of a unit is its pieces one behind another. -/
theorem write_pieces (u : SourceUnit) : u.write = String.join (u.pieces.map Piece.write) := by
  have hdirectives : (u.directives.map Piece.directive).map Piece.write =
      u.directives.map (· ++ "\n") := by
    rw [List.map_map]
    rfl
  have hdeclarations : (u.epilogue.map Piece.declaration).map Piece.write =
      u.epilogue.map terminated := by
    rw [List.map_map]
    rfl
  have hscopes : String.join ((u.scopes.flatMap (Piece.ofScope u.root)).map Piece.write) =
      String.join (u.scopes.map (writeScope u.root)) := by
    induction u.scopes with
    | nil => rfl
    | cons s ss ih =>
      rw [List.flatMap_cons, List.map_append, String.join_append, ih, List.map_cons,
        String.join_cons, writeScope_eq]
  simp only [write, pieces, contents, Piece.block, List.map_append, List.map_cons, List.map_nil,
    String.join_append, String.join_cons, String.join_nil, hdirectives, hdeclarations, hscopes,
    writeHeader, openBlock, closeBlock, Piece.write, String.append_empty, String.append_assoc]
  rfl

end SourceUnit

/-! ## Depths of pieces -/

namespace Piece

/-- What a piece adds to the depth. -/
def weight : Piece → Int
  | opening _ => 1
  | closing _ => -1
  | _ => 0

/-- Whether a text that is passed on is balanced, and a name or a directive has no brace. -/
def Fair : Piece → Prop
  | directive text | heading text => Plain text.toList
  | marker text | body _ text | declaration text => Balanced text.toList
  | blank | opening _ | closing _ => True

theorem balanced_terminated {text : String} (h : Balanced text.toList) :
    Balanced (SourceUnit.terminated text).toList := by
  unfold SourceUnit.terminated
  split
  · exact h
  · rw [String.toList_append]
    exact h.append (Plain.balanced (by decide))

theorem plain_line {text : String} (h : Plain text.toList) : Plain (text ++ "\n").toList := by
  rw [String.toList_append]
  exact h.append (by decide)

theorem plain_heading {name : String} (h : Plain name.toList) :
    Plain (heading name).write.toList := by
  rw [write, String.append_assoc, String.toList_append]
  exact Plain.append (by decide) (plain_line h)

theorem depth_write {p : Piece} (h : p.Fair) : depth p.write.toList = p.weight := by
  cases p with
  | directive text => exact (plain_line h).depth_eq
  | heading name => exact (plain_heading h).depth_eq
  | marker text => exact (balanced_terminated h).closed
  | body name text => exact (balanced_terminated h).closed
  | declaration text => exact (balanced_terminated h).closed
  | blank => decide
  | opening name =>
    show depth "\x7b\n".toList = 1
    decide
  | closing name =>
    show depth "\x7d\n".toList = -1
    decide

theorem depth_chars {ps : List Piece} (h : ∀ p ∈ ps, p.Fair) :
    depth (chars ps) = (ps.map weight).sum := by
  induction ps with
  | nil => rfl
  | cons p ps ih =>
    have hhead : chars (p :: ps) = p.write.toList ++ chars ps := rfl
    rw [hhead, depth_append, depth_write (h p List.mem_cons_self),
      ih fun q hq => h q (List.mem_cons_of_mem p hq), List.map_cons, List.sum_cons]

/-- Whether pieces that start at a depth all stand at their level, and end at that depth. -/
def LevelFrom (root : String) (d : Int) : List Piece → Prop
  | [] => True
  | p :: ps => d = p.level root ∧ LevelFrom root (d + p.weight) ps

theorem levelFrom_append {root : String} {d : Int} {ps qs : List Piece} :
    LevelFrom root d (ps ++ qs) ↔
      LevelFrom root d ps ∧ LevelFrom root (d + (ps.map weight).sum) qs := by
  induction ps generalizing d with
  | nil => simp [LevelFrom]
  | cons p ps ih =>
    rw [List.cons_append, LevelFrom, LevelFrom, ih, List.map_cons, List.sum_cons, Int.add_assoc,
      and_assoc]

/-- Pieces that stand at their levels from a depth on, and come back to it. -/
structure Returns (root : String) (d : Int) (ps : List Piece) : Prop where
  levels : LevelFrom root d ps
  total : (ps.map weight).sum = 0

theorem Returns.append {root : String} {d : Int} {ps qs : List Piece} (hp : Returns root d ps)
    (hq : Returns root d qs) : Returns root d (ps ++ qs) where
  levels := by
    rw [levelFrom_append, hp.total, Int.add_zero]
    exact ⟨hp.levels, hq.levels⟩
  total := by rw [List.map_append, List.sum_append, hp.total, hq.total, Int.add_zero]

theorem Returns.flatMap {α : Type} {root : String} {d : Int} {f : α → List Piece} {xs : List α}
    (h : ∀ x ∈ xs, Returns root d (f x)) : Returns root d (xs.flatMap f) := by
  induction xs with
  | nil => exact ⟨trivial, rfl⟩
  | cons x xs ih =>
    rw [List.flatMap_cons]
    exact (h x List.mem_cons_self).append (ih fun y hy => h y (List.mem_cons_of_mem x hy))

/-- Pieces of one level that open and close nothing. -/
theorem Returns.flat {α : Type} {root : String} {d : Int} {f : α → Piece} (xs : List α)
    (hweight : ∀ x, (f x).weight = 0) (hlevel : ∀ x, (f x).level root = d) :
    Returns root d (xs.map f) := by
  rw [List.map_eq_flatMap]
  refine Returns.flatMap fun x _ => ⟨⟨(hlevel x).symm, trivial⟩, ?_⟩
  rw [List.map_singleton, List.sum_singleton, hweight]

/-- A block stands one level above what is in it. -/
theorem Returns.block {root name : String} {ps : List Piece}
    (h : Returns root (inner root name) ps) :
    Returns root (inner root name - 1) (block name ps) where
  levels := by
    have hopened : inner root name - 1 + 0 + 1 = inner root name := by omega
    refine ⟨rfl, Int.add_zero _, ?_⟩
    show LevelFrom root (inner root name - 1 + 0 + 1) (ps ++ [closing name])
    rw [hopened, levelFrom_append, h.total, Int.add_zero]
    exact ⟨h.levels, rfl, trivial⟩
  total := by
    simp only [Piece.block, List.cons_append, List.map_cons, List.map_append, List.sum_cons,
      List.sum_append, h.total, weight, List.map_nil, List.sum_nil]
    rfl

theorem returns_ofScope (root : String) (s : Scope) :
    Returns root (inner root root) (ofScope root s) := by
  have hbodies : Returns root (inner root s.name) (s.bodies.map (body s.name)) :=
    Returns.flat s.bodies (fun _ => rfl) fun _ => rfl
  unfold ofScope
  by_cases h : s.name = root
  · rw [if_pos h]
    rw [h] at hbodies ⊢
    exact hbodies
  · have hlevel : inner root s.name - 1 = inner root root := by simp [inner, h]
    rw [if_neg h, ← hlevel]
    exact hbodies.block

end Piece

namespace SourceUnit

theorem returns_contents (u : SourceUnit) :
    Piece.Returns u.root (Piece.inner u.root u.root) u.contents := by
  have hmarker : Piece.Returns u.root (Piece.inner u.root u.root) [.marker u.marker] :=
    ⟨⟨rfl, trivial⟩, rfl⟩
  have hscopes : Piece.Returns u.root (Piece.inner u.root u.root)
      (u.scopes.flatMap (Piece.ofScope u.root)) :=
    .flatMap fun s _ => Piece.returns_ofScope u.root s
  have hdeclarations : Piece.Returns u.root (Piece.inner u.root u.root)
      (u.epilogue.map .declaration) :=
    .flat u.epilogue (fun _ => rfl) fun _ => rfl
  exact (hmarker.append hscopes).append hdeclarations

theorem returns_pieces (u : SourceUnit) : Piece.Returns u.root 0 u.pieces := by
  have hroot : Piece.inner u.root u.root - 1 = 0 := by simp [Piece.inner]
  have hblock := u.returns_contents.block
  rw [hroot] at hblock
  have hblank : Piece.Returns u.root 0 [.blank] := ⟨⟨rfl, trivial⟩, rfl⟩
  have hdirectives : Piece.Returns u.root 0 (u.directives.map .directive) :=
    .flat u.directives (fun _ => rfl) fun _ => rfl
  exact hdirectives.append (hblank.append hblock)

/-! ## Units without stray braces -/

/-- Whether every text that a unit passes on is balanced, and its names and directives have no
braces. -/
structure Braced (u : SourceUnit) : Prop where
  directives : ∀ d ∈ u.directives, Plain d.toList
  root : Plain u.root.toList
  marker : Balanced u.marker.toList
  scopes : ∀ s ∈ u.scopes, Plain s.name.toList ∧ ∀ b ∈ s.bodies, Balanced b.toList
  epilogue : ∀ d ∈ u.epilogue, Balanced d.toList

theorem Braced.fair_ofScope {u : SourceUnit} (h : u.Braced) {s : Scope} (hs : s ∈ u.scopes) :
    ∀ p ∈ Piece.ofScope u.root s, p.Fair := by
  obtain ⟨hname, hbodies⟩ := h.scopes s hs
  have hbody : ∀ p ∈ s.bodies.map (Piece.body s.name), p.Fair := by
    intro p hp
    obtain ⟨b, hb, rfl⟩ := List.mem_map.mp hp
    exact hbodies b hb
  intro p hp
  unfold Piece.ofScope at hp
  split at hp
  · exact hbody p hp
  · simp only [Piece.block, List.cons_append, List.mem_cons, List.mem_append, List.not_mem_nil,
      or_false] at hp
    rcases hp with rfl | rfl | hp | rfl
    · exact hname
    · trivial
    · exact hbody p hp
    · trivial

theorem Braced.fair_contents {u : SourceUnit} (h : u.Braced) : ∀ p ∈ u.contents, p.Fair := by
  intro p hp
  simp only [contents, List.cons_append, List.mem_cons, List.mem_append, List.mem_flatMap,
    List.mem_map] at hp
  rcases hp with rfl | ⟨s, hs, hp⟩ | ⟨d, hd, rfl⟩
  · exact h.marker
  · exact h.fair_ofScope hs p hp
  · exact h.epilogue d hd

theorem Braced.fair {u : SourceUnit} (h : u.Braced) : ∀ p ∈ u.pieces, p.Fair := by
  intro p hp
  simp only [pieces, Piece.block, List.cons_append, List.mem_cons, List.mem_append, List.mem_map,
    List.not_mem_nil, or_false] at hp
  rcases hp with ⟨d, hd, rfl⟩ | rfl | rfl | rfl | hp | rfl
  · exact h.directives d hd
  · trivial
  · exact h.root
  · trivial
  · exact h.fair_contents p hp
  · trivial

/-! ## The text around a piece -/

theorem getLast?_terminated (text : String) :
    (terminated text).toList.getLast? = some '\n' := by
  unfold terminated
  split
  · assumption
  · rw [String.toList_append]
    exact List.getLast?_concat

end SourceUnit

namespace Piece

theorem getLast?_write (p : Piece) : p.write.toList.getLast? = some '\n' := by
  have hline : ∀ text : String, (text ++ "\n").toList.getLast? = some '\n' := by
    intro text
    rw [String.toList_append]
    exact List.getLast?_concat
  cases p with
  | directive text => exact hline text
  | heading name => exact hline _
  | blank => rfl
  | opening name =>
    show "\x7b\n".toList.getLast? = some '\n'
    decide
  | closing name =>
    show "\x7d\n".toList.getLast? = some '\n'
    decide
  | marker text => exact SourceUnit.getLast?_terminated text
  | body name text => exact SourceUnit.getLast?_terminated text
  | declaration text => exact SourceUnit.getLast?_terminated text

/-- Every piece ends its line, whatever text it passes on. -/
theorem getLast?_chars {ps : List Piece} (h : ps ≠ []) : (chars ps).getLast? = some '\n' := by
  obtain ⟨qs, q, rfl⟩ := List.eq_nil_or_concat ps |>.resolve_left h
  have hne : q.write.toList ≠ [] := by
    intro hnil
    have hlast := q.getLast?_write
    rw [hnil] at hlast
    cases hlast
  have hsingle : chars [q] = q.write.toList := by simp [chars]
  rw [List.concat_eq_append, chars_append, hsingle, List.getLast?_append_of_ne_nil _ hne,
    getLast?_write]

/-- The text that a piece passes on. -/
def text? : Piece → Option String
  | marker text | body _ text | declaration text => some text
  | _ => none

/-- How a piece stands behind a text: it starts a line, at the depth of its level, and the text
that it passes on never falls below that. -/
structure Placed (root : String) (before : List Char) (p : Piece) : Prop where
  startsLine : before = [] ∨ before.getLast? = some '\n'
  depth_eq : depth before = p.level root
  within : ∀ text ∈ p.text?, ∀ a, a <+: text.toList → p.level root ≤ depth (before ++ a)

theorem Fair.balanced {p : Piece} (h : p.Fair) : ∀ text ∈ p.text?, Balanced text.toList := by
  intro text htext
  cases p with
  | marker | body | declaration =>
    cases htext
    exact h
  | _ => cases htext

/-- Fair pieces at their levels are placed there. -/
theorem placed {root : String} {before after : List Piece} {p : Piece}
    (hlevels : LevelFrom root 0 (before ++ p :: after))
    (hfair : ∀ q ∈ before ++ p :: after, q.Fair) : Placed root (chars before) p := by
  have hdepth : depth (chars before) = p.level root := by
    rw [depth_chars fun q hq => hfair q (List.mem_append_left _ hq), ← Int.zero_add (List.sum _)]
    exact (levelFrom_append.mp hlevels).2.1
  refine ⟨?_, hdepth, ?_⟩
  · by_cases hnil : before = []
    · exact .inl (by rw [hnil]; rfl)
    · exact .inr (getLast?_chars hnil)
  · intro text htext a ha
    have hinside := ((hfair p (by simp)).balanced text htext).nonneg a ha
    rw [depth_append, hdepth]
    omega

theorem balanced_ofScope {root : String} {s : Scope} (hname : Plain s.name.toList)
    (hbodies : ∀ b ∈ s.bodies, Balanced b.toList) : Balanced (chars (ofScope root s)) := by
  have hinner : Balanced (chars (s.bodies.map (body s.name))) := by
    rw [chars, List.flatMap_map]
    exact .flatMap fun b hb => balanced_terminated (hbodies b hb)
  unfold ofScope
  split
  · exact hinner
  · rw [chars_block]
    exact .block (plain_heading hname) ((Plain.balanced (s := ['\n']) (by decide)).append hinner)
      (by decide)

end Piece

namespace SourceUnit

theorem Braced.balanced_contents {u : SourceUnit} (h : u.Braced) :
    Balanced (Piece.chars u.contents) := by
  have hscopes : Balanced (Piece.chars (u.scopes.flatMap (Piece.ofScope u.root))) := by
    rw [Piece.chars_flatMap]
    exact .flatMap fun s hs => Piece.balanced_ofScope (h.scopes s hs).1 (h.scopes s hs).2
  have hdeclarations : Balanced (Piece.chars (u.epilogue.map .declaration)) := by
    rw [Piece.chars, List.flatMap_map]
    exact .flatMap fun d hd => Piece.balanced_terminated (h.epilogue d hd)
  rw [contents, Piece.chars_append, ← List.singleton_append, Piece.chars_append]
  refine (Balanced.append ?_ hscopes).append hdeclarations
  rw [Piece.chars, List.flatMap_singleton]
  exact Piece.balanced_terminated h.marker

/-- The lines in front of the brace that opens the root. -/
def front (u : SourceUnit) : List Piece := u.directives.map .directive ++ [.blank, .heading u.root]

theorem Braced.plain_front {u : SourceUnit} (h : u.Braced) : Plain (Piece.chars u.front) := by
  refine Plain.flatMap fun p hp => ?_
  simp only [front, List.mem_append, List.mem_map, List.mem_cons, List.not_mem_nil,
    or_false] at hp
  rcases hp with ⟨d, hd, rfl⟩ | rfl | rfl
  · exact Piece.plain_line (h.directives d hd)
  · show Plain "\n".toList
    decide
  · exact Piece.plain_heading h.root

theorem write_chars (u : SourceUnit) :
    u.write.toList = Piece.chars u.front ++
      '\x7b' :: ('\n' :: Piece.chars u.contents) ++ '\x7d' :: ['\n'] := by
  rw [write_pieces, join_pieces]
  simp [pieces, front, Piece.chars, Piece.block, Piece.write]

/-! ## The main statement -/

/-- What the braces of a written unit say: they are balanced, the depth comes back to zero with the
last brace only, and the text is made of pieces each of which starts a line at its own depth. A
namespace other than the root is one block with all its bodies, and nothing of it stands elsewhere;
the bodies of the root and the declarations stand in the root itself. -/
structure Scoped (u : SourceUnit) : Prop where
  text : u.write.toList = Piece.chars u.pieces
  balanced : Balanced u.write.toList
  closed : ∃ before, u.write.toList = before ++ ['\x7d', '\n'] ∧
    ∀ a, a <+: before → '\x7b' ∈ a → 1 ≤ depth a
  placed : ∀ before p after, u.pieces = before ++ p :: after →
    Piece.Placed u.root (Piece.chars before) p
  nested : ∀ s ∈ u.scopes, s.name ≠ u.root → ∃ before after,
    u.pieces = before ++ Piece.block s.name (s.bodies.map (.body s.name)) ++ after ∧
      ∀ p ∈ before ++ after, p.scope? ≠ some s.name
  inline : ∀ s ∈ u.scopes, s.name = u.root → ∃ before after,
    u.pieces = before ++ s.bodies.map (.body s.name) ++ after ∧
      ∀ p ∈ before ++ after, ∀ text, p ≠ .body s.name text
  epilogue : ∃ before,
    u.pieces = before ++ u.epilogue.map .declaration ++ [.closing u.root] ∧
      ∀ p ∈ before, ∀ text, p ≠ .declaration text

theorem mem_ofScope {root : String} {s : Scope} {p : Piece} (h : p ∈ Piece.ofScope root s) :
    p.scope? = some s.name ∧ (s.name = root → ∃ b ∈ s.bodies, p = .body s.name b) := by
  unfold Piece.ofScope at h
  split at h
  · next hname =>
    obtain ⟨b, hb, rfl⟩ := List.mem_map.mp h
    exact ⟨rfl, fun _ => ⟨b, hb, rfl⟩⟩
  · next hname =>
    refine ⟨?_, fun e => absurd e hname⟩
    simp only [Piece.block, List.cons_append, List.mem_cons, List.mem_append, List.mem_map,
      List.not_mem_nil, or_false] at h
    rcases h with rfl | rfl | ⟨b, -, rfl⟩ | rfl <;> rfl

/-- The pieces of a unit around those of one of its scopes. -/
theorem pieces_scope {u : SourceUnit} (hnames : (u.scopes.map Scope.name).Nodup) {s : Scope}
    (hs : s ∈ u.scopes) : ∃ before after,
      u.pieces = before ++ Piece.ofScope u.root s ++ after ∧
        ∀ p ∈ before ++ after, p.scope? ≠ some s.name ∨
          s.name = u.root ∧ ∀ text, p ≠ .body s.name text := by
  obtain ⟨xs, ys, hsplit⟩ := List.append_of_mem hs
  rw [hsplit, List.map_append, List.map_cons, List.perm_middle.nodup_iff, List.nodup_cons,
    ← List.map_append, List.mem_map] at hnames
  have hother : ∀ t ∈ xs ++ ys, ∀ p ∈ Piece.ofScope u.root t, p.scope? ≠ some s.name := by
    intro t ht p hp he
    rw [(mem_ofScope hp).1] at he
    exact hnames.1 ⟨t, ht, Option.some.inj he⟩
  have hroot : ∀ p : Piece, p = .heading u.root ∨ p = .opening u.root ∨ p = .closing u.root →
      p.scope? ≠ some s.name ∨ s.name = u.root ∧ ∀ text, p ≠ .body s.name text := by
    intro p hp
    by_cases hname : s.name = u.root
    · refine .inr ⟨hname, fun text he => ?_⟩
      rw [he] at hp
      rcases hp with hp | hp | hp <;> cases hp
    · left
      rcases hp with rfl | rfl | rfl <;> exact fun he => hname (Option.some.inj he).symm
  refine ⟨u.front ++ .opening u.root :: .marker u.marker :: xs.flatMap (Piece.ofScope u.root),
    ys.flatMap (Piece.ofScope u.root) ++ u.epilogue.map .declaration ++ [.closing u.root], ?_, ?_⟩
  · simp only [pieces, front, contents, Piece.block, hsplit, List.flatMap_append,
      List.flatMap_cons, List.append_assoc, List.cons_append, List.nil_append]
  · intro p hp
    simp only [front, List.mem_append, List.mem_map, List.mem_cons, List.not_mem_nil, or_false,
      List.mem_flatMap, or_assoc] at hp
    rcases hp with ⟨d, -, rfl⟩ | rfl | rfl | rfl | rfl | ⟨t, ht, hp⟩ | ⟨t, ht, hp⟩ |
      ⟨d, -, rfl⟩ | rfl
    · exact .inl (by simp [Piece.scope?])
    · exact .inl (by simp [Piece.scope?])
    · exact hroot _ (.inl rfl)
    · exact hroot _ (.inr (.inl rfl))
    · exact .inl (by simp [Piece.scope?])
    · exact .inl (hother t (List.mem_append_left _ ht) p hp)
    · exact .inl (hother t (List.mem_append_right _ ht) p hp)
    · exact .inl (by simp [Piece.scope?])
    · exact hroot _ (.inr (.inr rfl))

/-- **A unit is scoped by its own lines.** If its names are pairwise distinct, every text that it
passes on is balanced, and no name or directive has a brace, then so is the text that it writes, and
each of its pieces stands on lines of its own at the depth of its namespace. -/
theorem scoped_of_braced (u : SourceUnit) (hnames : (u.scopes.map Scope.name).Nodup)
    (h : u.Braced) : u.Scoped where
  text := by rw [write_pieces, join_pieces]
  balanced := by
    rw [write_chars]
    exact .block h.plain_front ((Plain.balanced (s := ['\n']) (by decide)).append
      h.balanced_contents) (by decide)
  closed := by
    refine ⟨Piece.chars u.front ++ '\x7b' :: ('\n' :: Piece.chars u.contents), u.write_chars, ?_⟩
    intro a ha hmem
    exact one_le_depth_of_mem h.plain_front ((Plain.balanced (s := ['\n']) (by decide)).append
      h.balanced_contents) ha hmem
  placed := by
    intro before p after hsplit
    have hlevels := u.returns_pieces.levels
    have hfair := h.fair
    rw [hsplit] at hlevels hfair
    exact Piece.placed hlevels hfair
  nested := by
    intro s hs hname
    obtain ⟨before, after, hpieces, hother⟩ := pieces_scope hnames hs
    rw [Piece.ofScope, if_neg hname] at hpieces
    exact ⟨before, after, hpieces, fun p hp => (hother p hp).resolve_right fun e => hname e.1⟩
  inline := by
    intro s hs hname
    obtain ⟨before, after, hpieces, hother⟩ := pieces_scope hnames hs
    rw [Piece.ofScope, if_pos hname] at hpieces
    refine ⟨before, after, hpieces, fun p hp text he => ?_⟩
    rcases hother p hp with hscope | ⟨-, hbody⟩
    · rw [he] at hscope
      exact hscope rfl
    · exact hbody text he
  epilogue := by
    refine ⟨u.front ++ .opening u.root :: .marker u.marker ::
      u.scopes.flatMap (Piece.ofScope u.root), ?_, ?_⟩
    · simp only [pieces, front, contents, Piece.block, List.append_assoc, List.cons_append,
        List.nil_append]
    · intro p hp text he
      subst he
      simp only [front, List.append_assoc, List.mem_append, List.mem_map, List.mem_cons,
        List.not_mem_nil, or_false, List.mem_flatMap, reduceCtorEq, and_false, exists_false,
        false_or] at hp
      obtain ⟨s, -, hs⟩ := hp
      have hscope := (mem_ofScope hs).1
      cases hscope

/-- A body that ends in a comment without a line feed, a namespace that is come back to, and a
declaration behind all bodies. -/
theorem scoped_of_comment :
    let u : SourceUnit := ⟨["using A;"], "R", "class M \x7b\x7d",
      [⟨"B.C", ["class C \x7b void F() \x7b\x7d \x7d // end", ""]⟩, ⟨"R", ["class D \x7b\x7d\n"]⟩],
      ["interface I \x7b\x7d"]⟩
    (u.scopes.map Scope.name).Nodup ∧ u.Braced ∧ u.Scoped := by
  intro u
  have hnames : (u.scopes.map Scope.name).Nodup := by decide
  have hbraced : u.Braced :=
    ⟨by decide, by decide, by decide, by decide, by decide⟩
  exact ⟨hnames, hbraced, scoped_of_braced u hnames hbraced⟩

end SourceUnit

end Assemblage
