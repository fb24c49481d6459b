import TransportDeck.FillGraph.Cycles
import TransportDeck.FillGraph.Depth
import TransportDeck.FillGraph.Instances

namespace TransportDeck

structure Hierarchy where
  universes : List Nat
  /-- The least number of fills from universe zero, for universes that can be reached. -/
  depth : Table Nat Nat
  fills : Table Nat (Table Nat Nat)
  filledBy : Table Nat (List Nat)
  maxDepth : Nat
  /-- Closed paths, each from its smallest universe. -/
  cycles : List (List Nat)
  /-- The universes that cannot be reached. -/
  unreachable : List Nat
  /-- The placements of each universe in the real world; empty if there are cycles. -/
  instances : Table Nat Nat
  deriving DecidableEq

namespace Hierarchy

def ofGraph (g : FillGraph) : Hierarchy :=
  let depth := g.depths
  let cycles := g.cycles.map (·.path)
  { universes := g.universes
    depth
    fills := g.fills
    filledBy := g.filledBy
    maxDepth := depth.values.foldl max 0
    cycles
    unreachable := g.universes.filter fun u => !depth.contains u
    instances := if cycles.isEmpty then g.instances else .empty }

def ofDeck (d : Deck) : Hierarchy :=
  ofGraph (FillGraph.ofDeck d)

def isAcyclic (h : Hierarchy) : Bool := h.cycles.isEmpty

def children (h : Hierarchy) (u : Nat) : List (Nat × Nat) :=
  match h.fills.find? u with
  | some counts => counts.entries
  | none => []

def firstFill? (d : Deck) (owner filled : Nat) : Option Cell :=
  d.cells.find? fun c => c.universeId == owner && c.placements.contains filled

def firstFiller? (d : Deck) (filled : Nat) : Option Cell :=
  d.cells.find? fun c => c.placements.contains filled

def cycleReport (d : Deck) (c : FillGraph.Cycle) : Diagnostic :=
  let cell := firstFill? d c.owner c.filled
  (Finding.cycle c.path ((cell.map (·.number)).getD 0) c.filled).report (cell.map (·.span))

/-- A universe that no cell is filled with is unused, not out of reach. -/
def unreachableReport? (d : Deck) (u : Nat) : Option Diagnostic :=
  (firstFiller? d u).map fun c => (Finding.unreachable u c.number).report (some c.span)

def nestingReports (h : Hierarchy) (limit : Nat) : List Diagnostic :=
  if limit < h.maxDepth then [(Finding.deepNesting h.maxDepth limit).report none] else []

def reports (d : Deck) (limit : Nat) : List Diagnostic :=
  let graph := FillGraph.ofDeck d
  let hierarchy := ofGraph graph
  graph.cycles.map (cycleReport d) ++
    hierarchy.unreachable.filterMap (unreachableReport? d) ++
    hierarchy.nestingReports limit

end Hierarchy

end TransportDeck
