import TransportDeck.CrossRefs

/-!
The graph of universes. An edge leads from a universe to one that a cell in it is filled with, and
carries the number of placements.
-/

namespace TransportDeck

structure FillGraph where
  /-- Every universe, in ascending order: zero, those of cells, and those filled into cells. -/
  universes : List Nat
  /-- The placements of each filled universe, by the universe they stand in. -/
  fills : Table Nat (Table Nat Nat)
  deriving DecidableEq

namespace FillGraph

def countEach (vs : List Nat) : Table Nat Nat :=
  tabulate vs fun v => vs.count v

def placementsIn (d : Deck) (u : Nat) : List Nat :=
  (d.cells.filter fun c => c.universeId == u).flatMap Cell.placements

/-- Every universe that is filled into a cell, be it a lattice's own. -/
def fillTargets (c : Cell) : List Nat :=
  match c.params.fill with
  | some f => f.targets
  | none => []

def ofDeck (d : Deck) : FillGraph where
  universes := sortDistinct (0 :: d.cells.flatMap fun c => c.universeId :: fillTargets c)
  fills :=
    tabulate ((d.cells.filter fun c => !c.placements.isEmpty).map (·.universeId)) fun u =>
      countEach (placementsIn d u)

def children (g : FillGraph) (u : Nat) : List (Nat × Nat) :=
  match g.fills.find? u with
  | some counts => counts.entries
  | none => []

def targets (g : FillGraph) (u : Nat) : List Nat :=
  (g.children u).map (·.1)

def filledBy (g : FillGraph) : Table Nat (List Nat) :=
  tabulate (g.fills.values.flatMap Table.keys) fun v =>
    (g.fills.entries.filter fun e => e.2.contains v).map (·.1)

end FillGraph

end TransportDeck
