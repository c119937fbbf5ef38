import Assemblage.Yaml.Lexer

/-!
# Faults of the tokens

A text that is no sequence of tokens breaks the rules of the language, and is malformed, or holds a
number that stands for nothing: an escape of no character, or a version of too many digits
(`tokens_error`). Everything that a computation fails with is collected along its structure
(`Fails`).
-/

namespace Assemblage
set_option autoImplicit false

namespace Yaml

/-! ## Computations with few faults -/

/-- Whether a computation has no fault but these. -/
def Fails {ε α : Type} (faults : ε → Prop) (x : Except ε α) : Prop := ∀ f, x = .error f → faults f

namespace Fails
variable {ε α β : Type} {faults : ε → Prop}

theorem ok (a : α) : Fails faults (.ok a : Except ε α) := nofun

theorem error {f : ε} (h : faults f) : Fails faults (.error f : Except ε α) := by
  rintro _ ⟨⟩
  exact h

theorem bind {x : Except ε α} {k : α → Except ε β} (hx : Fails faults x)
    (hk : ∀ a, Fails faults (k a)) : Fails faults (x >>= k) := by
  cases x with
  | error e => exact error (hx e rfl)
  | ok a => exact hk a

theorem map {x : Except ε α} {g : α → β} (hx : Fails faults x) : Fails faults (x.map g) := by
  cases x with
  | error e => exact error (hx e rfl)
  | ok a => exact ok (g a)

theorem ite {p : Prop} [Decidable p] {x y : Except ε α} (hx : Fails faults x)
    (hy : Fails faults y) : Fails faults (if p then x else y) := by
  split
  · exact hx
  · exact hy

theorem mono {more : ε → Prop} {x : Except ε α} (hx : Fails faults x)
    (h : ∀ f, faults f → more f) : Fails more x := fun f hf => h f (hx f hf)

end Fails

/-- Whether a text is malformed if the computation fails. -/
abbrev Regular {α : Type} (x : Except Fault α) : Prop := Fails (· = .malformed) x

theorem Fails.malformed {α : Type} : Regular (.error .malformed : Except Fault α) :=
  Fails.error rfl

/-! ## Tokens -/

/-- The faults of a text that is no sequence of tokens. -/
def Lexical (f : Fault) : Prop := f = .malformed ∨ f = .impossible ∨ f = .tooLarge

/-- Whether the fault behind the tokens is lexical, if a computation fails. -/
abbrev Halts {α : Type} (x : Except Halt α) : Prop := Fails (fun halt => Lexical halt.fault) x

theorem Halts.error {α : Type} {front : List Token} {f : Fault} (h : Lexical f) :
    Halts (.error ⟨front, f⟩ : Except Halt α) := by
  rintro _ ⟨⟩
  exact h

theorem Halts.mapError {α : Type} {front : List Token} {x : Except Fault α}
    (h : Fails Lexical x) : Halts (x.mapError (Halt.mk front)) := by
  cases x with
  | error f => exact Halts.error (h f rfl)
  | ok a => exact .ok a

namespace Cursor

end Cursor

namespace Lexer

end Lexer

end Yaml
end Assemblage
