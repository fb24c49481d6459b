import Mathlib.Order.Bounds.Basic
import TransportDeck.Hierarchy
import TransportDeck.Proofs.FillGraph.Layers

namespace TransportDeck

open FillGraph

namespace Hierarchy

theorem find?_depth {d : Deck} {u n : Nat} :
    (ofDeck d).depth.find? u = some n ↔ IsDepth d.Fills u n := by
  rw [← fills_ofDeck_eq]
  exact find?_depths (wellFormed_ofDeck d)

theorem mem_keys_depth {d : Deck} {u : Nat} :
    u ∈ (ofDeck d).depth.keys ↔ Relation.ReflTransGen d.Fills 0 u := by
  simp only [Table.mem_keys_iff, find?_depth, exists_isDepth_iff]

theorem mem_values_depth {d : Deck} {n : Nat} :
    n ∈ (ofDeck d).depth.values ↔ ∃ u, IsDepth d.Fills u n := by
  simp [Table.values, ← find?_depth, Table.find?_eq_some_iff_mem]

theorem mem_unreachable {d : Deck} {u : Nat} :
    u ∈ (ofDeck d).unreachable ↔ u ∈ (ofDeck d).universes ∧ u ∉ (ofDeck d).depth.keys := by
  simp [ofDeck, ofGraph, ← Table.contains_iff_mem_keys]

/-- The depths of a deck are the lengths of shortest ways, the greatest of them is the depth of the
deck, and whatever cannot be reached is listed; the search that finds them ends on every graph. -/
theorem shortest_depths_and_rest (d : Deck) :
    (∀ u, u ∈ (ofDeck d).depth.keys ↔ Relation.ReflTransGen d.Fills 0 u) ∧
    (∀ u n, (ofDeck d).depth.find? u = some n ↔ IsDepth d.Fills u n) ∧
    IsGreatest {n | ∃ u, IsDepth d.Fills u n} (ofDeck d).maxDepth ∧
    (ofDeck d).unreachable.Pairwise (· < ·) ∧
    (∀ u, u ∈ (ofDeck d).unreachable ↔
      u ∈ (ofDeck d).universes ∧ ¬ Relation.ReflTransGen d.Fills 0 u) ∧
    ((ofDeck d).depth.keys ++ (ofDeck d).unreachable).Perm (ofDeck d).universes ∧
    (∀ g, WellFounded fun after before => LayerStep g before after) ∧
    ∀ g unvisited frontier, ∃ rest last,
      Relation.ReflTransGen (LayerStep g) (unvisited, frontier) (rest, last) ∧
        (g.layers unvisited frontier).getLast? = some last ∧ ∀ s, ¬ LayerStep g (rest, last) s := by
  have hg := wellFormed_ofDeck d
  have hsorted : (ofDeck d).unreachable.Pairwise (· < ·) := hg.sorted.filter _
  refine ⟨fun u => mem_keys_depth, fun u n => find?_depth, ?_, hsorted, ?_, ?_,
    wellFounded_layerStep, layers_steps⟩
  · have hzero : 0 ∈ (ofDeck d).depth.values := mem_values_depth.mpr ⟨0, isDepth_zero_iff.mpr rfl⟩
    obtain ⟨greatest, hmax⟩ : ∃ greatest, (ofDeck d).depth.values.max? = some greatest :=
      Option.isSome_iff_exists.mp (List.isSome_max?_of_mem hzero)
    have ⟨hmem, hupper⟩ := List.max?_eq_some_iff.mp hmax
    have hdepth : (ofDeck d).maxDepth = greatest := by
      change (ofDeck d).depth.values.foldl max 0 = greatest
      rw [List.foldl_max, hmax, Option.getD_some, Nat.zero_max]
    rw [hdepth]
    exact ⟨mem_values_depth.mp hmem, fun n hn => hupper n (mem_values_depth.mpr hn)⟩
  · intro u
    rw [mem_unreachable, mem_keys_depth]
  · have hkeys : (ofDeck d).depth.keys.Nodup := (ofDeck d).depth.pairwise_keys.imp Nat.ne_of_lt
    have hrest : (ofDeck d).unreachable.Nodup := hsorted.imp Nat.ne_of_lt
    have hdisjoint : (ofDeck d).depth.keys.Disjoint (ofDeck d).unreachable :=
      fun u hu hout => (mem_unreachable.mp hout).2 hu
    have huniverses : (ofDeck d).universes.Nodup := hg.sorted.imp Nat.ne_of_lt
    rw [List.perm_ext_iff_of_nodup (hkeys.append hrest hdisjoint) huniverses]
    intro u
    rw [List.mem_append, mem_unreachable]
    have hreached : u ∈ (ofDeck d).depth.keys → u ∈ (ofDeck d).universes := by
      rw [mem_keys_depth, ← fills_ofDeck_eq, ← exists_fillPath_iff]
      rintro ⟨p, hp⟩
      exact hp.mem_universes hg
    by_cases hu : u ∈ (ofDeck d).depth.keys
    · simp [hu, hreached hu]
    · simp [hu]

end Hierarchy

end TransportDeck
