import TransportDeck.FillGraph

/-!
How often each universe stands in the real world. The placements along fills multiply, and the
different ways to a universe add up; counts stop at the largest number of 64 bits.
-/

namespace TransportDeck.FillGraph

def maxInstances : Nat := 18446744073709551615

def totals (counts : List (Nat × Nat)) : Table Nat Nat :=
  tabulate (counts.map (·.1)) fun v =>
    min maxInstances ((counts.filter fun e => e.1 == v).foldr (fun e rest => e.2 + rest) 0)

def advance (g : FillGraph) (counts : Table Nat Nat) : Table Nat Nat :=
  totals (counts.entries.flatMap fun e => (g.children e.1).map fun c => (c.1, e.2 * c.2))

def walks (g : FillGraph) (counts : Table Nat Nat) : Nat → List (Nat × Nat)
  | 0 => counts.entries
  | rounds + 1 =>
    if counts.isEmpty then [] else counts.entries ++ walks g (g.advance counts) rounds

/-- The number of times each universe is placed in the real world. Without cycles no way from
universe zero has more fills than there are universes. -/
def instances (g : FillGraph) : Table Nat Nat :=
  totals (g.walks (.ofList [(0, 1)]) g.universes.length)

end TransportDeck.FillGraph
