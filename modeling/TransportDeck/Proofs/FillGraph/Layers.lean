import TransportDeck.FillGraph.Depth
import TransportDeck.Proofs.FillGraph.FillPath

/-!
The search by layers. After `k` layers the frontier holds the universes of depth `k`, and the
unvisited ones are those with no way of `k` fills or fewer; so every universe that can be reached is
listed once, with its depth.
-/

namespace TransportDeck.FillGraph

variable {g : FillGraph} {unvisited frontier : List Nat} {k : Nat}

inductive LayerStep (g : FillGraph) : List Nat × List Nat → List Nat × List Nat → Prop
  | next (unvisited frontier : List Nat) (h : g.nextLayer unvisited frontier ≠ []) :
    LayerStep g (unvisited, frontier)
      (g.beyondLayer unvisited frontier, g.nextLayer unvisited frontier)

theorem wellFounded_layerStep (g : FillGraph) :
    WellFounded fun after before => LayerStep g before after := by
  have hless {before after : List Nat × List Nat} (h : LayerStep g before after) :
      after.1.length < before.1.length := by
    cases h with
    | next unvisited frontier h => exact length_beyondLayer_lt h
  exact Subrelation.wf hless (measure fun s : List Nat × List Nat => s.1.length).wf

/-- The recursion runs through these rounds, and ends where there is no further one. -/
theorem layers_steps (g : FillGraph) (unvisited frontier : List Nat) :
    ∃ rest last, Relation.ReflTransGen (LayerStep g) (unvisited, frontier) (rest, last) ∧
      (g.layers unvisited frontier).getLast? = some last ∧ ∀ s, ¬ LayerStep g (rest, last) s := by
  fun_induction layers g unvisited frontier with
  | case1 unvisited frontier hempty =>
    refine ⟨unvisited, frontier, .refl, rfl, ?_⟩
    rintro s ⟨_, _, hnext⟩
    exact hnext hempty
  | case2 unvisited frontier hnext _ ih =>
    obtain ⟨rest, last, hsteps, hlast, hend⟩ := ih
    refine ⟨rest, last, .head (.next unvisited frontier hnext) hsteps, ?_, hend⟩
    rw [List.getLast?_cons, hlast]
    rfl

structure AtDepth (g : FillGraph) (k : Nat) (unvisited frontier : List Nat) : Prop where
  mem_frontier : ∀ {v : Nat}, v ∈ frontier ↔ IsDepth g.Fills v k
  mem_unvisited : ∀ {v : Nat},
    v ∈ unvisited ↔ v ∈ g.universes ∧ ∀ p, FillPath g.Fills p v → k < p.length

theorem mem_nextLayer {v : Nat} : v ∈ g.nextLayer unvisited frontier ↔
    v ∈ unvisited ∧ ∃ u ∈ frontier, g.Fills u v := by
  simp [nextLayer, Fills]

theorem mem_beyondLayer {v : Nat} : v ∈ g.beyondLayer unvisited frontier ↔
    v ∈ unvisited ∧ v ∉ g.nextLayer unvisited frontier := by
  have hreached : ((frontier.flatMap g.targets).contains v = false) ↔
      ¬ ∃ u ∈ frontier, g.Fills u v := by
    rw [← Bool.not_eq_true, List.contains_iff_mem, List.mem_flatMap]
    rfl
  rw [mem_nextLayer, beyondLayer, List.mem_filter, Bool.not_eq_true', hreached]
  exact and_congr_right fun hv => not_congr (iff_and_self.mpr fun _ => hv)

theorem AtDepth.mem_nextLayer_iff (h : AtDepth g k unvisited frontier) (hg : g.WellFormed)
    {v : Nat} : v ∈ g.nextLayer unvisited frontier ↔ IsDepth g.Fills v (k + 1) := by
  simp only [mem_nextLayer, h.mem_unvisited, h.mem_frontier, isDepth_succ_iff]
  constructor
  · rintro ⟨⟨_, hlonger⟩, hfilled⟩
    exact ⟨hlonger, hfilled⟩
  · rintro ⟨hlonger, u, hu, hfill⟩
    exact ⟨⟨hg.filled_mem hfill, hlonger⟩, u, hu, hfill⟩

theorem AtDepth.next (h : AtDepth g k unvisited frontier) (hg : g.WellFormed) :
    AtDepth g (k + 1) (g.beyondLayer unvisited frontier) (g.nextLayer unvisited frontier) := by
  refine ⟨h.mem_nextLayer_iff hg, ?_⟩
  intro v
  rw [mem_beyondLayer, h.mem_unvisited, h.mem_nextLayer_iff hg]
  constructor
  · rintro ⟨⟨hv, hlonger⟩, hnext⟩
    refine ⟨hv, fun p hp => ?_⟩
    have hk := hlonger p hp
    -- a way of `k + 1` fills would put `v` into the next layer
    have hne : p.length ≠ k + 1 := by
      intro hlength
      apply hnext
      refine ⟨⟨p, hp, hlength⟩, ?_⟩
      rintro n ⟨q, hq, rfl⟩
      exact hlonger q hq
    omega
  · rintro ⟨hv, hlonger⟩
    refine ⟨⟨hv, fun p hp => Nat.lt_of_succ_lt (hlonger p hp)⟩, ?_⟩
    rintro ⟨⟨p, hp, hlength⟩, _⟩
    have hk := hlonger p hp
    omega

/-- Where no universe has depth `k + 1`, none lies deeper either. -/
theorem IsDepth.le_of_none_next {R : Nat → Nat → Prop} (hnone : ∀ v, ¬ IsDepth R v (k + 1))
    {v n : Nat} (h : IsDepth R v n) : n ≤ k := by
  induction n generalizing v with
  | zero => exact Nat.zero_le k
  | succ n ih =>
    obtain ⟨_, u, hu, _⟩ := isDepth_succ_iff.mp h
    rcases Nat.lt_or_eq_of_le (ih hu) with hlt | rfl
    · exact hlt
    · exact absurd h (hnone v)

/-- From depth `k` on the layers list every universe that lies as deep or deeper. -/
theorem AtDepth.mem_layers_iff (h : AtDepth g k unvisited frontier) (hg : g.WellFormed)
    {v n : Nat} :
    (∃ layer, (layer, n) ∈ (g.layers unvisited frontier).zipIdx k ∧ v ∈ layer) ↔
      k ≤ n ∧ IsDepth g.Fills v n := by
  fun_induction layers g unvisited frontier generalizing k with
  | case1 unvisited frontier hempty =>
    have hnone (w : Nat) : ¬ IsDepth g.Fills w (k + 1) := by
      rw [← h.mem_nextLayer_iff hg, hempty]
      exact List.not_mem_nil
    simp only [List.zipIdx_singleton, List.mem_singleton, Prod.mk.injEq]
    constructor
    · rintro ⟨_, ⟨rfl, rfl⟩, hv⟩
      exact ⟨Nat.le_refl n, h.mem_frontier.mp hv⟩
    · rintro ⟨hle, hdepth⟩
      obtain rfl : n = k := Nat.le_antisymm (hdepth.le_of_none_next hnone) hle
      exact ⟨frontier, ⟨rfl, rfl⟩, h.mem_frontier.mpr hdepth⟩
  | case2 unvisited frontier hnext _ ih =>
    simp only [List.zipIdx_cons, List.mem_cons, Prod.mk.injEq]
    constructor
    · rintro ⟨layer, ⟨rfl, rfl⟩ | hlater, hv⟩
      · exact ⟨Nat.le_refl n, h.mem_frontier.mp hv⟩
      · have ⟨hle, hdepth⟩ := (ih (h.next hg)).mp ⟨layer, hlater, hv⟩
        exact ⟨Nat.le_of_succ_le hle, hdepth⟩
    · rintro ⟨hle, hdepth⟩
      rcases Nat.lt_or_eq_of_le hle with hlt | rfl
      · obtain ⟨layer, hlater, hv⟩ := (ih (h.next hg)).mpr ⟨hlt, hdepth⟩
        exact ⟨layer, .inr hlater, hv⟩
      · exact ⟨frontier, .inl ⟨rfl, rfl⟩, h.mem_frontier.mpr hdepth⟩

theorem isDepth_zero_iff {R : Nat → Nat → Prop} {v : Nat} : IsDepth R v 0 ↔ v = 0 := by
  constructor
  · rintro ⟨⟨p, hp, hlength⟩, _⟩
    rw [List.length_eq_zero_iff.mp hlength] at hp
    exact hp.unique .zero
  · rintro rfl
    exact ⟨⟨[], .zero, rfl⟩, fun n _ => Nat.zero_le n⟩

theorem atDepth_start (g : FillGraph) : AtDepth g 0 (g.universes.filter (· != 0)) [0] := by
  refine ⟨by simp [isDepth_zero_iff], ?_⟩
  intro v
  simp only [List.mem_filter, bne_iff_ne, and_congr_right_iff]
  intro _
  constructor
  · intro hne p hp
    refine List.length_pos_iff.mpr ?_
    rintro rfl
    exact hne (hp.unique .zero)
  · rintro hpos rfl
    exact absurd (hpos [] .zero) (by simp)

theorem find?_depths (hg : g.WellFormed) {v n : Nat} :
    g.depths.find? v = some n ↔ IsDepth g.Fills v n := by
  rw [depths, Table.find?_ofList]
  generalize hentries : List.flatMap _ g.depthLayers.zipIdx = entries
  have hmem (v n : Nat) : (v, n) ∈ entries ↔ IsDepth g.Fills v n := by
    have hlayers := (atDepth_start g).mem_layers_iff hg (v := v) (n := n)
    simp only [Nat.zero_le, true_and] at hlayers
    rw [← hlayers, ← hentries]
    simp [depthLayers]
  constructor
  · intro hfound
    obtain ⟨before, after, hsplit, _⟩ := List.lookup_eq_some_iff.mp hfound
    rw [← hmem, hsplit]
    exact List.mem_append_right _ List.mem_cons_self
  · intro hdepth
    have hkey : v ∈ entries.map (·.1) := List.mem_map.mpr ⟨_, (hmem v n).mpr hdepth, rfl⟩
    obtain ⟨m, hfound⟩ := exists_lookup_iff.mpr hkey
    obtain ⟨before, after, hsplit, _⟩ := List.lookup_eq_some_iff.mp hfound
    have hother : IsDepth g.Fills v m := by
      rw [← hmem, hsplit]
      exact List.mem_append_right _ List.mem_cons_self
    rw [hfound, hother.unique hdepth]

end TransportDeck.FillGraph
