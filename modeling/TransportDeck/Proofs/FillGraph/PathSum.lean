import Mathlib.Algebra.BigOperators.Group.Finset.Sigma
import Mathlib.Algebra.BigOperators.Ring.Finset
import TransportDeck.Proofs.FillGraph.FillPath
import TransportDeck.Proofs.FillGraph.Totals

namespace TransportDeck.FillGraph

variable {g : FillGraph} {p : List Nat} {u v k : Nat}

/-- The product of the placements along a way from `u` on, where `n u v` is how often a cell of `u` is
filled with `v`. -/
def along (n : Nat → Nat → Nat) (u : Nat) : List Nat → Nat
  | [] => 1
  | v :: rest => n u v * along n v rest

theorem along_concat (n : Nat → Nat → Nat) (u : Nat) (p : List Nat) (v : Nat) :
    along n u (p ++ [v]) = along n u p * n ((u :: p).getLast (List.cons_ne_nil u p)) v := by
  induction p generalizing u with
  | nil => simp [along]
  | cons w rest ih =>
    rw [List.cons_append, along, ih, along, Nat.mul_assoc,
      List.getLast_cons (List.cons_ne_nil w rest)]

def placed (g : FillGraph) (u v : Nat) : Nat := totalAt (g.children u) v

theorem placed_eq_zero (h : ¬ g.Fills u v) : g.placed u v = 0 := totalAt_eq_zero h

theorem placed_ofDeck (d : Deck) (u v : Nat) :
    (ofDeck d).placed u v = (placementsIn d u).count v := by
  by_cases hfills : (ofDeck d).Fills u v
  · have hplaced : v ∈ placementsIn d u := mem_placementsIn_iff.mpr (fills_ofDeck.mp hfills)
    unfold placed children
    unfold Fills at hfills
    rw [targets_eq_keys] at hfills
    cases hrow : (ofDeck d).fills.find? u with
    | none =>
      rw [hrow] at hfills
      exact absurd hfills List.not_mem_nil
    | some counts =>
      have hcounts : counts = countEach (placementsIn d u) := by
        by_cases howner : u ∈ (d.cells.filter fun c => !c.placements.isEmpty).map (·.universeId)
        · rw [ofDeck, find?_tabulate _ howner] at hrow
          exact (Option.some.inj hrow).symm
        · rw [ofDeck, find?_tabulate_of_not_mem _ howner] at hrow
          cases hrow
      simp only [totalAt_entries, hcounts, countEach, find?_tabulate _ hplaced, Option.getD_some]
  · rw [placed_eq_zero hfills, eq_comm, List.count_eq_zero, mem_placementsIn_iff, ← fills_ofDeck]
    exact hfills

def fillPaths (g : FillGraph) : Nat → Nat → Finset (List Nat)
  | 0, v => if v = 0 then {[]} else ∅
  | k + 1, v =>
    (g.universes.toFinset.filter fun u => v ∈ g.targets u).biUnion fun u =>
      (fillPaths g k u).image (· ++ [v])

theorem mem_fillPaths (hg : g.WellFormed) :
    p ∈ g.fillPaths k v ↔ FillPath g.Fills p v ∧ p.length = k := by
  induction k generalizing p v with
  | zero =>
    rw [List.length_eq_zero_iff]
    constructor
    · intro hp
      rw [fillPaths] at hp
      split at hp
      · next hv =>
        obtain rfl := Finset.mem_singleton.mp hp
        exact ⟨hv ▸ .zero, rfl⟩
      · exact absurd hp (Finset.notMem_empty p)
    · rintro ⟨hp, rfl⟩
      simp [fillPaths, hp.unique .zero]
  | succ k ih =>
    simp only [fillPaths, Finset.mem_biUnion, Finset.mem_filter, List.mem_toFinset,
      Finset.mem_image, ih]
    constructor
    · rintro ⟨u, ⟨_, hfill⟩, q, ⟨hq, rfl⟩, rfl⟩
      exact ⟨hq.fill hfill, by simp⟩
    · rintro ⟨hp, hlength⟩
      cases hp with
      | zero => exact absurd hlength (by simp)
      | @fill q u _ hq hfill =>
        have hk : q.length = k := by simpa using hlength
        exact ⟨u, ⟨hg.owner_mem hfill, hfill⟩, q, ⟨hq, hk⟩, rfl⟩

theorem sum_fillPaths_succ (hg : g.WellFormed) (k v : Nat) :
    ∑ p ∈ g.fillPaths (k + 1) v, along g.placed 0 p =
      ∑ u ∈ g.universes.toFinset, (∑ p ∈ g.fillPaths k u, along g.placed 0 p) * g.placed u v := by
  have hdisjoint : Set.PairwiseDisjoint (↑(g.universes.toFinset.filter fun u => v ∈ g.targets u))
      fun u => (g.fillPaths k u).image (· ++ [v]) := by
    -- ways to different universes are different, and stay so with the same fill put to them
    intro u _ w _ hne
    refine Finset.disjoint_left.mpr fun p hp hp' => hne ?_
    obtain ⟨q, hq, rfl⟩ := Finset.mem_image.mp hp
    obtain ⟨q', hq', hsame⟩ := Finset.mem_image.mp hp'
    rw [List.append_cancel_right hsame] at hq'
    exact ((mem_fillPaths hg).mp hq).1.unique ((mem_fillPaths hg).mp hq').1
  have hlast (u : Nat) : ∑ p ∈ (g.fillPaths k u).image (· ++ [v]), along g.placed 0 p =
      (∑ p ∈ g.fillPaths k u, along g.placed 0 p) * g.placed u v := by
    rw [Finset.sum_image fun p _ q _ hsame => List.append_cancel_right hsame, Finset.sum_mul]
    refine Finset.sum_congr rfl fun p hp => ?_
    rw [along_concat, ((mem_fillPaths hg).mp hp).1.getLast_eq]
  rw [fillPaths, Finset.sum_biUnion hdisjoint, Finset.sum_congr rfl fun u _ => hlast u]
  refine Finset.sum_subset (Finset.filter_subset _ _) fun u hu hnot => ?_
  have hfill : ¬ g.Fills u v := fun hfill => hnot (Finset.mem_filter.mpr ⟨hu, hfill⟩)
  rw [placed_eq_zero hfill, Nat.mul_zero]

end TransportDeck.FillGraph
