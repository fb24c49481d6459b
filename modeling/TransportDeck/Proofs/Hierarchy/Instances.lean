import TransportDeck.Proofs.FillGraph.Walks
import TransportDeck.Proofs.Hierarchy.Cycles

namespace TransportDeck

open FillGraph

namespace Hierarchy

theorem cycles_eq_nil_iff_acyclic (d : Deck) :
    (ofDeck d).cycles = [] ↔ ∀ u, ¬ Relation.TransGen d.Fills u u := by
  rw [cycles_ofDeck, List.map_eq_nil_iff, cycles_eq_nil_iff (wellFormed_ofDeck d), fills_ofDeck_eq]

/-- Without cycles, instances are counted for the universes that can be reached. The count adds up
all ways to the universe, each with the product of the placements along it, up to the largest count.
With a cycle nothing is counted. -/
theorem instances_sum_over_paths (d : Deck) :
    ((∀ u, ¬ Relation.TransGen d.Fills u u) →
      (∀ v, v ∈ (ofDeck d).instances.keys ↔ Relation.ReflTransGen d.Fills 0 v) ∧
      ∀ v, Relation.ReflTransGen d.Fills 0 v →
        ∃ paths : Finset (List Nat), (∀ p, p ∈ paths ↔ FillPath d.Fills p v) ∧
          (ofDeck d).instances.find? v = some (min (2 ^ 64 - 1)
            (∑ p ∈ paths, along (fun u w => (placementsIn d u).count w) 0 p))) ∧
    ((∃ u, Relation.TransGen d.Fills u u) → (ofDeck d).instances = .empty) := by
  have hinstances : (ofDeck d).instances =
      if (ofDeck d).cycles.isEmpty then (FillGraph.ofDeck d).instances else .empty := rfl
  constructor
  · intro hacyclic
    have hcycles := (cycles_eq_nil_iff_acyclic d).mpr hacyclic
    rw [hinstances, hcycles, List.isEmpty_nil, if_pos rfl]
    have hplaced : (FillGraph.ofDeck d).placed = fun u w => (placementsIn d u).count w := by
      funext u w
      exact placed_ofDeck d u w
    have hfind := find?_instances (wellFormed_ofDeck d) (by rwa [fills_ofDeck_eq])
    rw [fills_ofDeck_eq, hplaced] at hfind
    have hreached {v : Nat} {paths : Finset (List Nat)}
        (hpaths : ∀ p, p ∈ paths ↔ FillPath d.Fills p v) :
        paths.Nonempty ↔ Relation.ReflTransGen d.Fills 0 v := by
      rw [← exists_fillPath_iff]
      exact exists_congr hpaths
    constructor
    · intro v
      obtain ⟨paths, hpaths, hcount⟩ := hfind v
      rw [Table.mem_keys_iff, hcount, ← hreached hpaths]
      by_cases hsome : paths.Nonempty <;> simp [hsome]
    · intro v hv
      obtain ⟨paths, hpaths, hcount⟩ := hfind v
      rw [if_pos ((hreached hpaths).mpr hv)] at hcount
      exact ⟨paths, hpaths, hcount⟩
  · rintro ⟨u, hu⟩
    have hcycles : (ofDeck d).cycles ≠ [] := fun hnil => (cycles_eq_nil_iff_acyclic d).mp hnil u hu
    rw [hinstances, if_neg (by simpa using hcycles)]

def sharedUniverse : Deck where
  title := ""
  messages := []
  cells :=
    let lattice : FillArray :=
      ⟨⟨0, 1⟩, ⟨0, 1⟩, ⟨0, 0⟩, [1, 2, 3, -2].map fun u => { signedUniverse := u }⟩
    [(1, 0, .simple 1 none), (2, 0, .simple (-1) none), (3, 1, .array lattice),
      (4, 3, .simple 2 none), (5, 5, .simple 1 none), (6, 5, .simple 0 none)].map
        fun (number, u, fill) => { number, params := { signedUniverse := some u, fill := some fill } }
  surfaces := []
  data := []

theorem instances_sharedUniverse :
    (∀ u, ¬ Relation.TransGen sharedUniverse.Fills u u) ∧
    (∀ v, v ∈ (ofDeck sharedUniverse).instances.keys ↔
      Relation.ReflTransGen sharedUniverse.Fills 0 v) ∧
    (∃ paths : Finset (List Nat), (∀ p, p ∈ paths ↔ FillPath sharedUniverse.Fills p 2) ∧
      min (2 ^ 64 - 1)
        (∑ p ∈ paths, along (fun u w => (placementsIn sharedUniverse u).count w) 0 p) = 6) ∧
    (∃ u, Relation.TransGen twoWaysAround.Fills u u) ∧ (ofDeck twoWaysAround).instances = .empty := by
  have hacyclic := (cycles_eq_nil_iff_acyclic sharedUniverse).mp (by decide +kernel)
  have hcyclic : ∃ u, Relation.TransGen twoWaysAround.Fills u u := by
    have hgraph : 3 ∈ (FillGraph.ofDeck twoWaysAround).targets 1 ∧
        1 ∈ (FillGraph.ofDeck twoWaysAround).targets 3 := by decide +kernel
    exact ⟨1, .tail (.single (fills_ofDeck.mp hgraph.1)) (fills_ofDeck.mp hgraph.2)⟩
  obtain ⟨hkeys, hcounts⟩ := (instances_sum_over_paths sharedUniverse).1 hacyclic
  have htwo : (ofDeck sharedUniverse).instances.find? 2 = some 6 := by decide +kernel
  obtain ⟨paths, hpaths, hcount⟩ := hcounts 2 ((hkeys 2).mp (Table.mem_keys_iff.mpr ⟨6, htwo⟩))
  rw [htwo] at hcount
  exact ⟨hacyclic, hkeys, ⟨paths, hpaths, (Option.some.inj hcount).symm⟩, hcyclic,
    (instances_sum_over_paths twoWaysAround).2 hcyclic⟩

end Hierarchy

end TransportDeck
