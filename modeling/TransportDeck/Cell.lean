import TransportDeck.Fill
import TransportDeck.Particle
import TransportDeck.Region

namespace TransportDeck

inductive Density
  /-- Atoms per barn and centimetre, written positive. -/
  | atomic (value : Float)
  /-- Grams per cubic centimetre, written negative. -/
  | mass (value : Float)
  deriving DecidableEq

def Density.ofSigned (value : Float) : Density :=
  if value < 0 then .mass (-value) else .atomic value

def replaceOrAppend {κ α : Type} [DecidableEq κ] (k : κ) (a : α) : List (κ × α) → List (κ × α)
  | [] => [(k, a)]
  | e :: rest => if e.1 = k then (k, a) :: rest else e :: replaceOrAppend k a rest

structure CellParams where
  importance : Table Particle Float := .empty
  /-- The universe as written. -/
  signedUniverse : Option Int := none
  fill : Option Fill := none
  lattice : Option Int := none
  transform : Option TransformSpec := none
  volume : Option Float := none
  temperature : Option Float := none
  /-- Keywords that carry no meaning here, with their values. -/
  other : List (String × List String) := []
  deriving DecidableEq, Inhabited

namespace CellParams

def universeId (p : CellParams) : Nat :=
  (p.signedUniverse.getD 0).natAbs

def other? (p : CellParams) (key : String) : Option (List String) :=
  p.other.lookup key

/-- Lays `upper` over `lower`. A repeated keyword keeps its place and gets the new values. -/
def overlay (lower upper : CellParams) : CellParams where
  importance := upper.importance.entries.foldl (fun t e => t.insert e.1 e.2) lower.importance
  signedUniverse := upper.signedUniverse <|> lower.signedUniverse
  fill := upper.fill <|> lower.fill
  lattice := upper.lattice <|> lower.lattice
  transform := upper.transform <|> lower.transform
  volume := upper.volume <|> lower.volume
  temperature := upper.temperature <|> lower.temperature
  other := upper.other.foldl (fun kept e => replaceOrAppend e.1 e.2 kept) lower.other

end CellParams

structure Cell where
  number : Nat
  /-- The material number, zero for a void. -/
  material : Nat := 0
  /-- The density as written. -/
  density : Option Float := none
  region : Region := .nothing
  params : CellParams := {}
  /-- The cell that this one is written like. -/
  like : Option Nat := none
  span : Span := .zero
  deriving DecidableEq

namespace Cell

def isVoid (c : Cell) : Bool := c.material == 0

def density? (c : Cell) : Option Density := c.density.map Density.ofSigned

def universeId (c : Cell) : Nat := c.params.universeId

def isLattice (c : Cell) : Bool := c.params.lattice.isSome

end Cell

end TransportDeck
