namespace TransportDeck

structure Span where
  first : Nat
  last : Nat
  deriving DecidableEq, Repr

namespace Span

def zero : Span := ⟨0, 0⟩

instance : Inhabited Span := ⟨zero⟩

/-- Lines `first` to `last`, or line `first` alone if `last` comes before it. -/
def new (first last : Nat) : Span :=
  ⟨first, max last first⟩

def line (n : Nat) : Span :=
  new n n

def extendTo (s : Span) (n : Nat) : Span :=
  { s with last := max s.last n }

def describe (s : Span) : String :=
  if s.first = s.last then s!"line {s.first}" else s!"lines {s.first}-{s.last}"

end Span

end TransportDeck
