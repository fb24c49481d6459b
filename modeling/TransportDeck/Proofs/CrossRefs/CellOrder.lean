import TransportDeck.Hierarchy
import TransportDeck.Proofs.Table.Order

namespace TransportDeck

structure CrossRefs.Reordered (refs refs' : CrossRefs) : Prop where
  universes : refs.universes.Reordered refs'.universes
  surfaceUsers : refs.surfaceUsers.Reordered refs'.surfaceUsers
  materialUsers : refs.materialUsers.Reordered refs'.materialUsers
  others : refs' = { refs with
    universes := refs'.universes
    surfaceUsers := refs'.surfaceUsers
    materialUsers := refs'.materialUsers }

variable {d : Deck} {cells : List Cell}

namespace FillGraph

theorem countEach_perm {vs vs' : List Nat} (hperm : vs.Perm vs') : countEach vs = countEach vs' :=
  tabulate_congr (fun _ => hperm.mem_iff) fun v => hperm.count_eq v

theorem ofDeck_perm (hperm : d.cells.Perm cells) :
    ofDeck { d with cells } = ofDeck d := by
  have huniverses : sortDistinct (0 :: cells.flatMap fun c => c.universeId :: fillTargets c) =
      sortDistinct (0 :: d.cells.flatMap fun c => c.universeId :: fillTargets c) :=
    sortDistinct_congr fun _ => ((hperm.symm.flatMap_right _).cons 0).mem_iff
  have hplacements (u : Nat) : (placementsIn { d with cells } u).Perm (placementsIn d u) :=
    (hperm.symm.filter _).flatMap_right _
  have howners (u : Nat) : u ∈ (cells.filter fun c => !c.placements.isEmpty).map (·.universeId) ↔
      u ∈ (d.cells.filter fun c => !c.placements.isEmpty).map (·.universeId) :=
    ((hperm.symm.filter _).map _).mem_iff
  rw [ofDeck, ofDeck, huniverses, tabulate_congr howners fun u => countEach_perm (hplacements u)]

end FillGraph

/-- The hierarchy does not depend on the order of the cells. -/
theorem Hierarchy.ofDeck_perm (hperm : d.cells.Perm cells) :
    ofDeck { d with cells } = ofDeck d := by
  rw [ofDeck, FillGraph.ofDeck_perm hperm, ofDeck]

namespace CrossRefs

theorem cellsWhere_perm (hperm : d.cells.Perm cells) (p : Cell → Bool) :
    (cellsWhere d p).Perm (cellsWhere { d with cells } p) :=
  (hperm.filter p).map _

theorem referenced_perm (hperm : d.cells.Perm cells) (kind : TargetKind) :
    referenced { d with cells } kind = referenced d kind := by
  have hcells := hperm.symm.flatMap_right Cell.references
  have hreferences : (Deck.references { d with cells }).Perm d.references :=
    (hcells.append_right _).append_right _
  exact sortDistinct_congr fun _ => (((hreferences.map _).filter _).map _).mem_iff

theorem filled_perm (hperm : d.cells.Perm cells) : filled { d with cells } = filled d :=
  sortDistinct_congr fun _ => (hperm.symm.flatMap_right _).mem_iff

/-- The tables know the same records, and list the same cells in another order. -/
theorem reordered_ofDeck (hperm : d.cells.Perm cells) (hd : (d.cells.map (·.number)).Nodup) :
    (ofDeck d).Reordered (ofDeck { d with cells }) := by
  have huniverses : (universesOf d).Reordered (universesOf { d with cells }) :=
    reordered_tabulate (fun _ => ((hperm.map _).cons 0).mem_iff) fun _ => cellsWhere_perm hperm _
  have hsurfaces : (surfaceUsersOf d).Reordered (surfaceUsersOf { d with cells }) :=
    reordered_tabulate (fun _ => (hperm.flatMap_right _).mem_iff) fun _ => cellsWhere_perm hperm _
  have hmaterials : (materialUsersOf d).Reordered (materialUsersOf { d with cells }) :=
    reordered_tabulate (fun _ => ((hperm.map _).filter _).mem_iff) fun _ => cellsWhere_perm hperm _
  have hspans : Table.ofList (cells.map fun c => (c.number, c.span)) =
      Table.ofList (d.cells.map fun c => (c.number, c.span)) := by
    refine (Table.ofList_perm (hperm.map _) ?_).symm
    rwa [List.map_map]
  refine ⟨huniverses, hsurfaces, hmaterials, ?_⟩
  simp only [ofDeck, hspans, referenced_perm hperm, filled_perm hperm, huniverses.keys_eq,
    hmaterials.keys_eq]
  rfl

end CrossRefs

end TransportDeck
