import TransportDeck.Hierarchy
import TransportDeck.Proofs.Checked.CycleSearch
import TransportDeck.Proofs.Checked.Depths
import TransportDeck.Proofs.Checked.Instances
import TransportDeck.Proofs.FillGraph.CycleSearch

namespace TransportDeck.Checked

noncomputable def hierarchy (g : FillGraph) (found : List FillGraph.Cycle) : Option Hierarchy := do
  let depth ← depths g
  let instances ← if found.isEmpty then instances g depth else pure .empty
  return {
    universes := g.universes
    depth
    fills := g.fills
    filledBy := g.filledBy
    maxDepth := depth.values.foldl max 0
    cycles := found.map (·.path)
    unreachable := g.universes.filter fun u => !depth.contains u
    instances }

noncomputable def universes (d : Deck) (limit : Nat) : Option (Hierarchy × List Diagnostic) := do
  let graph ← fillGraph d
  let found ← cycles graph
  let hierarchy ← hierarchy graph found
  return (hierarchy, found.map (Hierarchy.cycleReport d) ++
    hierarchy.unreachable.filterMap (Hierarchy.unreachableReport? d) ++
    hierarchy.nestingReports limit)

variable {d : Deck}

/-- Universes are numbers of 32 bits, so there are not too many of them to count. -/
theorem universes_length_lt (hwords : ∀ c ∈ d.cells, c.params.IsWord) :
    (FillGraph.ofDeck d).universes.length < maxWord := by
  have hmem : (FillGraph.ofDeck d).universes ⊆ List.range (4294967295 + 1) := by
    intro u hu
    rw [List.mem_range, Nat.lt_succ_iff]
    rcases FillGraph.mem_universes_ofDeck.mp hu with rfl | ⟨c, hc, rfl | hu⟩
    · exact Nat.zero_le _
    · exact natAbs_le (fits_owner (hwords c hc))
    · exact fillTargets_le (hwords c hc) hu
  have hnodup : (FillGraph.ofDeck d).universes.Nodup :=
    (FillGraph.wellFormed_ofDeck d).sorted.imp Nat.ne_of_lt
  have hle := (hnodup.subperm hmem).length_le
  rw [List.length_range] at hle
  simp only [maxWord]
  omega

theorem hierarchy_eq {g : FillGraph} (hg : g.WellFormed) (hsize : g.universes.length < maxWord) :
    hierarchy g g.cycles = some (Hierarchy.ofGraph g) := by
  have hempty : (g.cycles.map (·.path)).isEmpty = g.cycles.isEmpty := List.isEmpty_map
  rw [hierarchy, depths_eq hg hsize, Hierarchy.ofGraph, hempty]
  cases hcycles : g.cycles.isEmpty with
  | true =>
    have hacyclic := (FillGraph.cycles_eq_nil_iff hg).mp (List.isEmpty_iff.mp hcycles)
    simp only [instances_eq hg hsize hacyclic, if_true, Option.bind_eq_bind, Option.bind_some]
    rfl
  | false => rfl

theorem universes_eq (hwords : ∀ c ∈ d.cells, c.params.IsWord)
    (htargets : (d.cells.flatMap FillGraph.fillTargets).length < lengthLimit) (limit : Nat) :
    universes d limit = some (Hierarchy.ofDeck d, Hierarchy.reports d limit) := by
  have hg := FillGraph.wellFormed_ofDeck d
  rw [universes, fillGraph_eq hwords htargets]
  simp only [cycles_eq hg, hierarchy_eq hg (universes_length_lt hwords), Option.bind_eq_bind,
    Option.bind_some]
  rfl

end TransportDeck.Checked
