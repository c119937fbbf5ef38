/-!
Spans of a text: from a place up to another place that is not before it. A span fits a text that is
at least as long as the span's end.
-/

namespace Assemblage
set_option autoImplicit false

structure Span where
  start : Nat
  stop : Nat
  start_le_stop : start ≤ stop
  deriving DecidableEq, Repr

/-- What is wrong with a span. -/
inductive SpanFault where
  /-- It starts before the text or ends before it starts. -/
  | disordered (start stop : Int)
  /-- It ends behind the end of the text. -/
  | tooLong (start stop length : Nat)
  deriving DecidableEq, Repr

def SpanFault.message : SpanFault → String
  | disordered start stop => s!"Invalid header span [{start}, {stop})"
  | tooLong start stop length =>
    s!"Header span [{start}, {stop}) exceeds text length {length}"

namespace Span

def empty : Span := ⟨0, 0, Nat.le_refl 0⟩

def of (start stop : Int) : Except SpanFault Span :=
  if h : 0 ≤ start ∧ start ≤ stop then .ok ⟨start.toNat, stop.toNat, by omega⟩
  else .error (.disordered start stop)

/-- From the beginning of a text. -/
def upTo (stop : Nat) : Span := ⟨0, stop, Nat.zero_le stop⟩

def fits (s : Span) (text : List Char) : Except SpanFault Unit :=
  if s.stop ≤ text.length then .ok () else .error (.tooLong s.start s.stop text.length)

/-- What the span covers. -/
def header (s : Span) (text : List Char) : Except SpanFault (List Char) := do
  s.fits text
  return (text.take s.stop).drop s.start

/-- What is behind the span. -/
def body (s : Span) (text : List Char) : Except SpanFault (List Char) := do
  s.fits text
  return text.drop s.stop

end Span

end Assemblage
