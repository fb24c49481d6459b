import TransportDeck.FillGraph
import TransportDeck.Table.Lookup

namespace TransportDeck

/-- A cell is filled with a universe. A lattice element that holds the lattice's own universe fills
nothing. -/
def Cell.FilledWith (c : Cell) (v : Nat) : Prop :=
  ∃ f, c.params.fill = some f ∧ v ∈ f.targets ∧ (f.array?.isSome → v ≠ c.universeId)

def Deck.Fills (d : Deck) (u v : Nat) : Prop :=
  ∃ c ∈ d.cells, c.universeId = u ∧ c.FilledWith v

theorem Cell.mem_placements_iff {c : Cell} {v : Nat} : v ∈ c.placements ↔ c.FilledWith v := by
  unfold Cell.placements Cell.FilledWith
  cases hf : c.params.fill with
  | none => simp
  | some f =>
    cases f with
    | simple u transform => simp [Fill.targets, Fill.array?]
    | array a => simp [Fill.array?]

namespace FillGraph

def Fills (g : FillGraph) (u v : Nat) : Prop := v ∈ g.targets u

/-- What the graph of every deck satisfies: universe zero is one of its universes, and fills lead
from universes to universes. -/
structure WellFormed (g : FillGraph) : Prop where
  sorted : g.universes.Pairwise (· < ·)
  zero_mem : 0 ∈ g.universes
  owner_mem : ∀ {u v : Nat}, g.Fills u v → u ∈ g.universes
  filled_mem : ∀ {u v : Nat}, g.Fills u v → v ∈ g.universes

theorem targets_eq_keys (g : FillGraph) (u : Nat) :
    g.targets u = match g.fills.find? u with
      | some counts => counts.keys
      | none => [] := by
  unfold targets children
  cases g.fills.find? u <;> rfl

/-- The rows of a graph are its fills, one row for each owner. -/
theorem fills_iff_row {g : FillGraph} {u v : Nat} :
    g.Fills u v ↔ ∃ counts, g.fills.find? u = some counts ∧ v ∈ counts.keys := by
  unfold Fills
  rw [targets_eq_keys]
  cases g.fills.find? u <;> simp

/-- Fills are followed in ascending order. -/
theorem pairwise_targets (g : FillGraph) (u : Nat) : (g.targets u).Pairwise (· < ·) := by
  rw [targets_eq_keys]
  cases g.fills.find? u with
  | none => exact .nil
  | some counts => exact counts.pairwise_keys

theorem find?_countEach (vs : List Nat) (v : Nat) :
    (countEach vs).find? v = if v ∈ vs then some (vs.count v) else none := by
  split
  · next hv => exact find?_tabulate _ hv
  · next hv => exact find?_tabulate_of_not_mem _ hv

theorem mem_placementsIn_iff {d : Deck} {u v : Nat} : v ∈ placementsIn d u ↔ d.Fills u v := by
  simp only [placementsIn, List.mem_flatMap, List.mem_filter, beq_iff_eq, Cell.mem_placements_iff,
    Deck.Fills]
  constructor
  · rintro ⟨c, ⟨hc, hu⟩, hv⟩
    exact ⟨c, hc, hu, hv⟩
  · rintro ⟨c, hc, hu, hv⟩
    exact ⟨c, ⟨hc, hu⟩, hv⟩

theorem fills_ofDeck {d : Deck} {u v : Nat} : (ofDeck d).Fills u v ↔ d.Fills u v := by
  have hkeys : v ∈ (countEach (placementsIn d u)).keys ↔ d.Fills u v := by
    rw [countEach, mem_keys_tabulate, mem_placementsIn_iff]
  unfold Fills
  rw [targets_eq_keys]
  by_cases howner : u ∈ (d.cells.filter fun c => !c.placements.isEmpty).map (·.universeId)
  · simp only [ofDeck, find?_tabulate _ howner, hkeys]
  · -- no cell of `u` is filled, so the graph has no row for it
    simp only [ofDeck, find?_tabulate_of_not_mem _ howner, List.not_mem_nil, false_iff]
    rintro ⟨c, hc, rfl, hv⟩
    apply howner
    have hp : c.placements ≠ [] := List.ne_nil_of_mem (Cell.mem_placements_iff.mpr hv)
    exact List.mem_map.mpr ⟨c, List.mem_filter.mpr ⟨hc, by simpa using hp⟩, rfl⟩

theorem fills_ofDeck_eq (d : Deck) : (ofDeck d).Fills = d.Fills := by
  funext u v
  exact propext fills_ofDeck

theorem mem_fillTargets_of_filledWith {c : Cell} {v : Nat} (h : c.FilledWith v) :
    v ∈ fillTargets c := by
  obtain ⟨f, hf, hv, _⟩ := h
  simpa [fillTargets, hf] using hv

theorem mem_universes_ofDeck {d : Deck} {w : Nat} :
    w ∈ (ofDeck d).universes ↔
      w = 0 ∨ ∃ c ∈ d.cells, w = c.universeId ∨ w ∈ fillTargets c := by
  simp [ofDeck]

theorem wellFormed_ofDeck (d : Deck) : (ofDeck d).WellFormed where
  sorted := pairwise_sortDistinct _
  zero_mem := mem_universes_ofDeck.mpr (.inl rfl)
  owner_mem := by
    intro u v h
    obtain ⟨c, hc, hu, _⟩ := fills_ofDeck.mp h
    exact mem_universes_ofDeck.mpr (.inr ⟨c, hc, .inl hu.symm⟩)
  filled_mem := by
    intro u v h
    obtain ⟨c, hc, _, hv⟩ := fills_ofDeck.mp h
    exact mem_universes_ofDeck.mpr (.inr ⟨c, hc, .inr (mem_fillTargets_of_filledWith hv)⟩)

end FillGraph

end TransportDeck
