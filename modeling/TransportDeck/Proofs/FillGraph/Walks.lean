import Mathlib.Order.Interval.Finset.Nat
import TransportDeck.Proofs.FillGraph.PathSum

/-!
The rounds in which instances are counted. After `k` rounds the counts are the placements along the
ways of `k` fills, and those of all rounds together are the placements along all ways, since without
cycles no way has as many fills as there are universes.
-/

namespace TransportDeck.FillGraph

variable {g : FillGraph} {counts : Table Nat Nat} {k v : Nat}

/-- Counts that hold the placements along some ways: they go with the universes that the ways lead
to, and add up to as much. -/
structure CountsPaths (g : FillGraph) (counts : List (Nat × Nat))
    (paths : Nat → Finset (List Nat)) : Prop where
  mem_keys : ∀ {v : Nat}, v ∈ counts.map (·.1) ↔ (paths v).Nonempty
  total : ∀ v : Nat, SameCount (totalAt counts v) (∑ p ∈ paths v, along g.placed 0 p)

theorem CountsPaths.append {counts more : List (Nat × Nat)} {paths others : Nat → Finset (List Nat)}
    (h : CountsPaths g counts paths) (h' : CountsPaths g more others)
    (hdisjoint : ∀ v, Disjoint (paths v) (others v)) :
    CountsPaths g (counts ++ more) fun v => paths v ∪ others v := by
  refine ⟨?_, fun v => ?_⟩
  · intro v
    rw [List.map_append, List.mem_append, h.mem_keys, h'.mem_keys, Finset.union_nonempty]
  · rw [totalAt_append, Finset.sum_union (hdisjoint v)]
    exact (h.total v).add (h'.total v)

theorem countsPaths_start (g : FillGraph) :
    CountsPaths g (Table.ofList [(0, 1)]).entries (g.fillPaths 0) := by
  change CountsPaths g [(0, 1)] (g.fillPaths 0)
  refine ⟨?_, fun v => ?_⟩
  · intro v
    by_cases hv : v = 0 <;> simp [fillPaths, hv]
  · by_cases hv : v = 0
    · subst hv
      rfl
    · have hcount : totalAt [(0, 1)] v = 0 := totalAt_eq_zero (by simpa using hv)
      rw [hcount, fillPaths, if_neg hv]
      rfl

theorem totalAt_map_mul (n : Nat) (counts : List (Nat × Nat)) (v : Nat) :
    totalAt (counts.map fun c => (c.1, n * c.2)) v = n * totalAt counts v := by
  induction counts with
  | nil => rfl
  | cons c rest ih =>
    rw [List.map_cons, totalAt_cons, totalAt_cons, ih, Nat.mul_add]
    split <;> simp

/-- One fill further on a universe has what comes from each owner, times its placements there. -/
theorem totalAt_children (g : FillGraph) (counts : List (Nat × Nat)) (v : Nat) :
    totalAt (counts.flatMap fun e => (g.children e.1).map fun c => (c.1, e.2 * c.2)) v =
      (counts.map fun e => e.2 * g.placed e.1 v).sum := by
  induction counts with
  | nil => rfl
  | cons e rest ih =>
    rw [List.flatMap_cons, totalAt_append, totalAt_map_mul, ih]
    rfl

theorem fillPaths_succ_nonempty (hg : g.WellFormed) :
    (g.fillPaths (k + 1) v).Nonempty ↔ ∃ u, (g.fillPaths k u).Nonempty ∧ g.Fills u v := by
  constructor
  · rintro ⟨p, hp⟩
    obtain ⟨hp, hlength⟩ := (mem_fillPaths hg).mp hp
    cases hp with
    | zero => exact absurd hlength (by simp)
    | @fill q u _ hq hfill =>
      have hk : q.length = k := by simpa using hlength
      exact ⟨u, ⟨q, (mem_fillPaths hg).mpr ⟨hq, hk⟩⟩, hfill⟩
  · rintro ⟨u, ⟨p, hp⟩, hfill⟩
    obtain ⟨hp, hlength⟩ := (mem_fillPaths hg).mp hp
    exact ⟨p ++ [v], (mem_fillPaths hg).mpr ⟨hp.fill hfill, by simp [hlength]⟩⟩

theorem CountsPaths.advance (h : CountsPaths g counts.entries (g.fillPaths k)) (hg : g.WellFormed) :
    CountsPaths g (g.advance counts).entries (g.fillPaths (k + 1)) := by
  refine ⟨?_, fun v => ?_⟩
  · intro v
    change v ∈ (g.advance counts).keys ↔ _
    simp only [FillGraph.advance, mem_keys_totals, fillPaths_succ_nonempty hg, ← h.mem_keys,
      List.mem_map, List.mem_flatMap, Fills, targets]
    constructor
    · rintro ⟨_, ⟨e, he, c, hc, rfl⟩, rfl⟩
      exact ⟨e.1, ⟨e, he, rfl⟩, c, hc, rfl⟩
    · rintro ⟨_, ⟨e, he, rfl⟩, c, hc, rfl⟩
      exact ⟨_, ⟨e, he, c, hc, rfl⟩, rfl⟩
  · have hkeys : ∀ e ∈ counts.entries, e.1 ∈ g.universes.toFinset := by
      intro e he
      obtain ⟨p, hp⟩ := h.mem_keys.mp (List.mem_map_of_mem he)
      exact List.mem_toFinset.mpr (((mem_fillPaths hg).mp hp).1.mem_universes hg)
    have hround : SameCount (totalAt (g.advance counts).entries v)
        (∑ u ∈ g.universes.toFinset, totalAt counts.entries u * g.placed u v) := by
      rw [← sum_map_mul (fun u => g.placed u v) hkeys, ← totalAt_children]
      exact sameCount_totals _ v
    -- cutting off the counts of the round before does not change where they are cut off now
    rw [sum_fillPaths_succ hg]
    exact hround.trans (.sum fun u _ => (h.total u).mul_right (g.placed u v))

theorem fillPaths_eq_empty (hg : g.WellFormed) (hnone : ∀ v, g.fillPaths k v = ∅) {n : Nat}
    (hle : k ≤ n) : ∀ v, g.fillPaths n v = ∅ := by
  induction n, hle using Nat.le_induction with
  | base => exact hnone
  | succ n _ ih =>
    intro v
    rw [← Finset.not_nonempty_iff_eq_empty, fillPaths_succ_nonempty hg]
    rintro ⟨u, hu, _⟩
    exact Finset.not_nonempty_iff_eq_empty.mpr (ih u) hu

/-- The rounds from the `k`-th on hold the placements along the ways of `k` fills or more. -/
theorem CountsPaths.walks (h : CountsPaths g counts.entries (g.fillPaths k)) (hg : g.WellFormed)
    (rounds : Nat) : CountsPaths g (g.walks counts rounds) fun v =>
      (Finset.Icc k (k + rounds)).biUnion fun n => g.fillPaths n v := by
  induction rounds generalizing counts k with
  | zero =>
    simp only [Nat.add_zero, Finset.Icc_self, Finset.singleton_biUnion]
    exact h
  | succ rounds ih =>
    rw [FillGraph.walks]
    by_cases hempty : counts.isEmpty
    · -- no way is as long as this, so the rounds end here
      have hnone (v : Nat) : g.fillPaths k v = ∅ := by
        have hentries : counts.entries = [] := List.isEmpty_iff.mp hempty
        rw [← Finset.not_nonempty_iff_eq_empty, ← h.mem_keys, hentries]
        exact List.not_mem_nil
      have hall : (fun v => (Finset.Icc k (k + (rounds + 1))).biUnion fun n => g.fillPaths n v) =
          fun _ => ∅ := by
        funext v
        refine Finset.eq_empty_of_forall_notMem fun p hp => ?_
        obtain ⟨n, hn, hp⟩ := Finset.mem_biUnion.mp hp
        rw [fillPaths_eq_empty hg hnone (Finset.mem_Icc.mp hn).1 v] at hp
        exact Finset.notMem_empty p hp
      rw [if_pos hempty, hall]
      exact ⟨by simp, fun v => rfl⟩
    · -- the ways of `k` fills now, and the longer ones in the rounds that follow
      have hlater := ih (h.advance hg)
      have hrange : Finset.Icc k (k + (rounds + 1)) =
          insert k (Finset.Icc (k + 1) (k + 1 + rounds)) := by
        ext n
        simp only [Finset.mem_insert, Finset.mem_Icc]
        omega
      have hdisjoint (v : Nat) : Disjoint (g.fillPaths k v)
          ((Finset.Icc (k + 1) (k + 1 + rounds)).biUnion fun n => g.fillPaths n v) := by
        refine Finset.disjoint_left.mpr fun p hp hp' => ?_
        obtain ⟨n, hn, hp'⟩ := Finset.mem_biUnion.mp hp'
        have hk := ((mem_fillPaths hg).mp hp).2
        have hn' := ((mem_fillPaths hg).mp hp').2
        have hle := (Finset.mem_Icc.mp hn).1
        omega
      simp only [if_neg hempty, hrange, Finset.biUnion_insert]
      exact h.append hlater hdisjoint

theorem FillPath.length_le (hg : g.WellFormed) (hacyclic : ∀ u, ¬ Relation.TransGen g.Fills u u)
    {p : List Nat} (hp : FillPath g.Fills p v) : p.length ≤ g.universes.length := by
  have hlength := ((hp.nodup hacyclic).subperm (hp.subset hg)).length_le
  rw [List.length_cons] at hlength
  omega

/-- Without cycles the instances of a universe are the placements along all ways to it. -/
theorem find?_instances (hg : g.WellFormed) (hacyclic : ∀ u, ¬ Relation.TransGen g.Fills u u)
    (v : Nat) : ∃ paths : Finset (List Nat), (∀ p, p ∈ paths ↔ FillPath g.Fills p v) ∧
      g.instances.find? v =
        if paths.Nonempty then some (min maxInstances (∑ p ∈ paths, along g.placed 0 p))
        else none := by
  have hwalks := (countsPaths_start g).walks hg g.universes.length
  refine ⟨(Finset.Icc 0 (0 + g.universes.length)).biUnion fun n => g.fillPaths n v, fun p => ?_, ?_⟩
  · simp only [Finset.mem_biUnion, Finset.mem_Icc, mem_fillPaths hg]
    constructor
    · rintro ⟨n, _, hp, _⟩
      exact hp
    · intro hp
      have hle := hp.length_le hg hacyclic
      exact ⟨p.length, by omega, hp, rfl⟩
  · rw [instances, find?_totals, ← hwalks.total v]
    exact if_congr hwalks.mem_keys rfl rfl

end TransportDeck.FillGraph
