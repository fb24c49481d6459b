import TransportDeck.Span
import TransportDeck.SurfaceKind

namespace TransportDeck

inductive Boundary
  | ordinary
  /-- Specular reflection, marked by a star. -/
  | reflecting
  /-- Reflection in random directions, marked by a plus sign. -/
  | white
  deriving DecidableEq, Repr, Inhabited

structure Surface where
  number : Nat
  boundary : Boundary
  /-- A transform number, or the number of a periodic partner with a minus sign. -/
  transform : Option Int
  kind : SurfaceKind
  coefficients : List Float
  span : Span := .zero
  deriving DecidableEq

namespace Surface

def transformId? (s : Surface) : Option Nat :=
  (s.transform.filter (0 < ·)).map Int.natAbs

def periodicPartner? (s : Surface) : Option Nat :=
  (s.transform.filter (· < 0)).map Int.natAbs

end Surface

end TransportDeck
