import TransportDeck.Particle
import TransportDeck.Span

namespace TransportDeck

inductive Entity
  | cell
  | surface
  | point
  deriving DecidableEq, Repr, Inhabited

namespace Entity

def describe : Entity → String
  | cell => "cell"
  | surface => "surface"
  | point => "point"

end Entity

inductive TallyKind
  | surfaceCurrent
  | surfaceFlux
  | cellFlux
  | detector
  | energyDeposition
  | fissionDeposition
  | pulseHeight
  deriving DecidableEq, Repr, Inhabited

namespace TallyKind

def ofNumber? (number : Nat) : Option TallyKind :=
  match number % 10 with
  | 1 => some surfaceCurrent
  | 2 => some surfaceFlux
  | 4 => some cellFlux
  | 5 => some detector
  | 6 => some energyDeposition
  | 7 => some fissionDeposition
  | 8 => some pulseHeight
  | _ => none

def entity : TallyKind → Entity
  | surfaceCurrent | surfaceFlux => .surface
  | detector => .point
  | _ => .cell

def describe : TallyKind → String
  | surfaceCurrent => "surface current"
  | surfaceFlux => "surface flux"
  | cellFlux => "cell flux"
  | detector => "detector"
  | energyDeposition => "energy deposition"
  | fissionDeposition => "fission energy deposition"
  | pulseHeight => "pulse height"

end TallyKind

inductive Modifier
  | ordinary
  /-- A star: results in energy units. -/
  | star
  /-- A plus sign: collision heating or charge deposition. -/
  | plus
  deriving DecidableEq, Repr, Inhabited

structure TallyRef where
  entity : Entity
  id : Nat
  deriving DecidableEq, Repr

structure Detector where
  x : Float
  y : Float
  z : Float
  radius : Float
  deriving DecidableEq

structure Tally where
  number : Nat
  kind : TallyKind
  modifier : Modifier
  particles : List Particle
  bins : List TallyRef
  points : List Detector
  span : Span := .zero
  deriving DecidableEq

namespace Tally

def binsOf (t : Tally) (entity : Entity) : List Nat :=
  (t.bins.filter fun b => b.entity = entity).map (·.id)

def cells (t : Tally) : List Nat := t.binsOf .cell

def surfaces (t : Tally) : List Nat := t.binsOf .surface

end Tally

end TransportDeck
