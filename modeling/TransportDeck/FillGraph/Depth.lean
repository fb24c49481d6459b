import TransportDeck.FillGraph

namespace TransportDeck.FillGraph

def nextLayer (g : FillGraph) (unvisited frontier : List Nat) : List Nat :=
  let reached := frontier.flatMap g.targets
  unvisited.filter fun v => reached.contains v

def beyondLayer (g : FillGraph) (unvisited frontier : List Nat) : List Nat :=
  let reached := frontier.flatMap g.targets
  unvisited.filter fun v => !reached.contains v

theorem length_beyondLayer_lt {g : FillGraph} {unvisited frontier : List Nat}
    (h : g.nextLayer unvisited frontier ≠ []) :
    (g.beyondLayer unvisited frontier).length < unvisited.length := by
  obtain ⟨v, hv⟩ := List.exists_mem_of_ne_nil _ h
  have ⟨hm, hr⟩ := List.mem_filter.mp hv
  exact List.length_filter_lt_length_iff_exists.mpr ⟨v, hm, by simpa using hr⟩

def layers (g : FillGraph) (unvisited frontier : List Nat) : List (List Nat) :=
  if h : g.nextLayer unvisited frontier = [] then [frontier]
  else
    have := length_beyondLayer_lt h
    frontier :: layers g (g.beyondLayer unvisited frontier) (g.nextLayer unvisited frontier)
termination_by unvisited.length

def depthLayers (g : FillGraph) : List (List Nat) :=
  g.layers (g.universes.filter (· != 0)) [0]

def depths (g : FillGraph) : Table Nat Nat :=
  .ofList (g.depthLayers.zipIdx.flatMap fun (layer, depth) => layer.map fun u => (u, depth))

end TransportDeck.FillGraph
