import Mathlib.Algebra.BigOperators.Intervals
import Mathlib.Order.WellFoundedSet
import TransportDeck.Proofs.FillGraph.Layers
import TransportDeck.Proofs.FillGraph.Walks

/-!
Instances in balance. Without cycles there is one way only to count the universes such that each has
what its owners pass on to it, and universe zero one more; so it makes no difference in which order
the universes are gone through.
-/

namespace TransportDeck.FillGraph

variable {g : FillGraph} {v : Nat}

/-- Without cycles what holds of a universe as soon as it holds of its owners holds of every one. -/
theorem owner_induction (hg : g.WellFormed) (hacyclic : ∀ u, ¬ Relation.TransGen g.Fills u u)
    {P : Nat → Prop} (h : ∀ v ∈ g.universes, (∀ u, g.Fills u v → P u) → P v)
    (hv : v ∈ g.universes) : P v := by
  have hirrefl : Std.Irrefl (Relation.TransGen g.Fills) := ⟨hacyclic⟩
  have horder : IsStrictOrder Nat (Relation.TransGen g.Fills) :=
    { hirrefl with trans := fun _ _ _ => Relation.TransGen.trans }
  have hfounded : (g.universes.toFinset : Set Nat).WellFoundedOn (Relation.TransGen g.Fills) :=
    g.universes.toFinset.finite_toSet.wellFoundedOn
  refine hfounded.induction (List.mem_toFinset.mpr hv) fun w hw ih => ?_
  refine h w (List.mem_toFinset.mp hw) fun u hu => ?_
  exact ih u (List.mem_toFinset.mpr (hg.owner_mem hu)) (.single hu)

def waysTo (g : FillGraph) (v : Nat) : Nat :=
  ∑ k ∈ Finset.range (g.universes.length + 1), ∑ p ∈ g.fillPaths k v, along g.placed 0 p

theorem waysTo_balance (hg : g.WellFormed) (hacyclic : ∀ u, ¬ Relation.TransGen g.Fills u u)
    (v : Nat) : g.waysTo v =
      (if v = 0 then 1 else 0) + ∑ u ∈ g.universes.toFinset, g.waysTo u * g.placed u v := by
  -- no way is longer than that, so one fill more makes no difference
  have hlonger : g.fillPaths (g.universes.length + 1) v = ∅ := by
    refine Finset.eq_empty_of_forall_notMem fun p hp => ?_
    obtain ⟨hp, hlength⟩ := (mem_fillPaths hg).mp hp
    have hle := hp.length_le hg hacyclic
    omega
  have hmore : g.waysTo v =
      ∑ k ∈ Finset.range (g.universes.length + 2), ∑ p ∈ g.fillPaths k v, along g.placed 0 p := by
    rw [Finset.sum_range_succ _ (g.universes.length + 1), hlonger]
    rfl
  have hstart : ∑ p ∈ g.fillPaths 0 v, along g.placed 0 p = if v = 0 then 1 else 0 := by
    rw [fillPaths]
    split <;> rfl
  rw [hmore, Finset.sum_range_succ', hstart, Nat.add_comm]
  congr 1
  simp only [sum_fillPaths_succ hg, waysTo, Finset.sum_mul]
  exact Finset.sum_comm

theorem mem_keys_depths (hg : g.WellFormed) :
    v ∈ g.depths.keys ↔ ∃ p, FillPath g.Fills p v := by
  rw [Table.mem_keys_iff, exists_fillPath_iff, ← exists_isDepth_iff]
  exact exists_congr fun n => find?_depths hg

theorem find?_instances_waysTo (hg : g.WellFormed)
    (hacyclic : ∀ u, ¬ Relation.TransGen g.Fills u u) (v : Nat) :
    g.instances.find? v =
      if v ∈ g.depths.keys then some (min maxInstances (g.waysTo v)) else none := by
  obtain ⟨paths, hpaths, hfind⟩ := find?_instances hg hacyclic v
  have hreached : paths.Nonempty ↔ v ∈ g.depths.keys := by
    rw [mem_keys_depths hg]
    exact exists_congr hpaths
  have hall : paths = (Finset.range (g.universes.length + 1)).biUnion fun k => g.fillPaths k v := by
    ext p
    simp only [hpaths, Finset.mem_biUnion, Finset.mem_range, mem_fillPaths hg]
    constructor
    · intro hp
      have hle := hp.length_le hg hacyclic
      exact ⟨p.length, by omega, hp, rfl⟩
    · rintro ⟨_, _, hp, _⟩
      exact hp
  have hdisjoint : Set.PairwiseDisjoint (↑(Finset.range (g.universes.length + 1)))
      fun k => g.fillPaths k v := by
    intro k _ n _ hne
    refine Finset.disjoint_left.mpr fun p hp hp' => hne ?_
    rw [← ((mem_fillPaths hg).mp hp).2, ((mem_fillPaths hg).mp hp').2]
  have hsum : ∑ p ∈ paths, along g.placed 0 p = g.waysTo v := by
    rw [hall, Finset.sum_biUnion hdisjoint]
    rfl
  rw [hfind, hsum]
  exact if_congr hreached rfl rfl

/-- A count in balance is the count of instances, wherever that is kept. -/
theorem find?_instances_of_balance (hg : g.WellFormed)
    (hacyclic : ∀ u, ¬ Relation.TransGen g.Fills u u) {count : Nat → Nat}
    (hcount : ∀ v ∈ g.universes, SameCount (count v)
      ((if v = 0 then 1 else 0) + ∑ u ∈ g.universes.toFinset, count u * g.placed u v))
    (v : Nat) : g.instances.find? v =
      if v ∈ g.depths.keys then some (min maxInstances (count v)) else none := by
  have hsame (hv : v ∈ g.universes) : SameCount (count v) (g.waysTo v) := by
    refine owner_induction (P := fun v => SameCount (count v) (g.waysTo v)) hg hacyclic ?_ hv
    intro v hv ih
    rw [waysTo_balance hg hacyclic]
    refine (hcount v hv).trans ?_
    refine SameCount.add rfl (.sum fun u _ => ?_)
    by_cases hfill : g.Fills u v
    · exact (ih u hfill).mul_right _
    · rw [placed_eq_zero hfill, Nat.mul_zero, Nat.mul_zero]
      rfl
  rw [find?_instances_waysTo hg hacyclic]
  refine ite_congr rfl (fun hv => ?_) fun _ => rfl
  obtain ⟨p, hp⟩ := (mem_keys_depths hg).mp hv
  rw [hsame (hp.mem_universes hg)]

end TransportDeck.FillGraph
