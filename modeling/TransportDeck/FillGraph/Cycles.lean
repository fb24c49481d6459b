import TransportDeck.FillGraph

/-!
Universes that contain themselves. A depth first search walks along fills; a fill that leads back to
a universe on the current path closes a cycle. A universe is entered once: it leaves the unvisited
ones when it joins the path, and never comes back after it has left the path.
-/

namespace TransportDeck.FillGraph

/-- A closed path of universes, from its smallest one back to it, and the fill that closed it. -/
structure Cycle where
  path : List Nat
  owner : Nat
  filled : Nat
  deriving DecidableEq, Repr

/-- The universes of a cycle, starting from its smallest one and returning to it. -/
def closedPath (cycle : List Nat) : List Nat :=
  match cycle.min? with
  | none => []
  | some least =>
    cycle.dropWhile (· != least) ++ cycle.takeWhile (· != least) ++ [least]

/-- A universe on the current path, with the fills that are still to be followed. -/
structure Frame where
  universeId : Nat
  pending : List Nat
  deriving DecidableEq, Repr

def Frame.work (path : List Frame) : Nat :=
  path.foldr (fun f rest => f.pending.length + 1 + rest) 0

def workAhead (g : FillGraph) (us : List Nat) : Nat :=
  us.foldr (fun u rest => (g.targets u).length + 1 + rest) 0

theorem workAhead_erase (g : FillGraph) {us : List Nat} {v : Nat} (h : v ∈ us) :
    g.workAhead us = (g.targets v).length + 1 + g.workAhead (us.erase v) := by
  refine (List.perm_cons_erase h).foldr_eq' (fun u _ w _ rest => ?_) 0
  omega

/-- Records the cycle that a fill from the end of the path to `filled` closes, unless `filled` is
not on the path or the cycle is known. Paths list their end first. -/
def record (path : List Frame) (owner filled : Nat) (found : List Cycle) : List Cycle :=
  let names := path.map (·.universeId)
  if names.contains filled then
    let closed := closedPath (filled :: (names.takeWhile (· != filled)).reverse)
    if found.any fun c => c.path == closed then found else found ++ [⟨closed, owner, filled⟩]
  else found

/-- Searches on from a path. The result holds the universes that are still unvisited when the path
has been left, and the cycles found so far. -/
def explore (g : FillGraph) (unvisited : List Nat) (found : List Cycle) :
    List Frame → List Nat × List Cycle
  | [] => (unvisited, found)
  | ⟨_, []⟩ :: outer => explore g unvisited found outer
  | ⟨u, v :: pending⟩ :: outer =>
    if v ∈ unvisited then
      explore g (unvisited.erase v) found (⟨v, g.targets v⟩ :: ⟨u, pending⟩ :: outer)
    else
      -- `v` is on the path, which closes a cycle, or was left earlier with all its fills followed
      explore g unvisited (record (⟨u, pending⟩ :: outer) u v found) (⟨u, pending⟩ :: outer)
termination_by path => g.workAhead unvisited + Frame.work path
decreasing_by
  · simp [Frame.work]
  · next h =>
    rw [workAhead_erase g h]
    simp only [Frame.work, List.foldr_cons, List.length_cons]
    omega
  · simp [Frame.work]

def searchFrom (g : FillGraph) (state : List Nat × List Cycle) (root : Nat) :
    List Nat × List Cycle :=
  if root ∈ state.1 then g.explore (state.1.erase root) state.2 [⟨root, g.targets root⟩]
  else state

/-- The cycles in the order they are closed, searching from universe zero first and then from the
others in ascending order. -/
def cycles (g : FillGraph) : List Cycle :=
  ((0 :: g.universes).foldl g.searchFrom (g.universes, [])).2

end TransportDeck.FillGraph
