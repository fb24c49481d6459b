import TransportDeck.Proofs.FillGraph.SearchRun

namespace TransportDeck.FillGraph

variable {g : FillGraph}

theorem left_end (u : Nat) (hu : u ∈ g.universes) (found : List Cycle) :
    SearchState.Left g ⟨[], found, []⟩ u :=
  ⟨hu, List.not_mem_nil, List.not_mem_nil⟩

theorem nodup_cycles (hg : g.WellFormed) : (g.cycles.map Cycle.path).Nodup :=
  (invariant_cycles hg).found_nodup

theorem mem_cycles_path_iff (hg : g.WellFormed) {path : List Nat} :
    path ∈ g.cycles.map Cycle.path ↔
      ∃ c, IsCycle g.Fills c ∧ OnFirstPath g.Fills c ∧ ClosesFromLeast c path := by
  rw [← closes_firstPath_iff]
  have hinv := invariant_cycles hg
  constructor
  · intro h
    obtain ⟨c, hc, rfl⟩ := List.mem_map.mp h
    obtain ⟨p, hp, hmem, hfill, hclosed⟩ := hinv.found_closed c hc
    exact ⟨p, c.owner, c.filled, hp, hmem, hfill, hclosed⟩
  · rintro ⟨p, w, x, hp, hx, hfill, rfl⟩
    exact hinv.left_recorded w (left_end w (hg.owner_mem hfill) _) p hp x hx hfill

/-- A universe on a cycle contains itself. -/
theorem IsCycle.exists_transGen_self {R : Nat → Nat → Prop} {c : List Nat} (hc : IsCycle R c) :
    ∃ u, Relation.TransGen R u u := by
  obtain ⟨first, rest, rfl, hchain⟩ := hc.closed
  refine ⟨first, ?_⟩
  have hpairs := (hchain.imp fun _ _ => Relation.TransGen.single).pairwise
  exact List.rel_of_pairwise_cons hpairs (List.mem_append_right _ List.mem_cons_self)

/-- Where a relation does not lead on for ever, it does not lead back. -/
theorem not_transGen_self_of_acc {R : Nat → Nat → Prop} {u : Nat} (h : Acc (fun y x => R x y) u) :
    ¬ Relation.TransGen R u u := by
  induction h with
  | intro u _ ih =>
    intro hu
    obtain ⟨v, huv, hvu⟩ := Relation.TransGen.head'_iff.mp hu
    exact ih v huv (Relation.TransGen.tail' hvu huv)

/-- No cycle is found exactly if no universe contains itself. -/
theorem cycles_eq_nil_iff (hg : g.WellFormed) :
    g.cycles = [] ↔ ∀ u, ¬ Relation.TransGen g.Fills u u := by
  have hinv := invariant_cycles hg
  constructor
  · intro hnone u hu
    obtain ⟨v, huv, _⟩ := Relation.TransGen.head'_iff.mp hu
    have hacc := hinv.left_ends hnone u (left_end u (hg.owner_mem huv) _)
    exact not_transGen_self_of_acc hacc hu
  · intro hacyclic
    refine List.eq_nil_iff_forall_not_mem.mpr fun c hc => ?_
    have hpath := List.mem_map_of_mem (f := Cycle.path) hc
    obtain ⟨c', hcycle, _, _⟩ := (mem_cycles_path_iff hg).mp hpath
    obtain ⟨u, hu⟩ := hcycle.exists_transGen_self
    exact hacyclic u hu

theorem isClosedPath_of_mem_cycles (hg : g.WellFormed) {path : List Nat}
    (h : path ∈ g.cycles.map Cycle.path) : IsClosedPath g.Fills path := by
  obtain ⟨c, hcycle, _, hclosed⟩ := (mem_cycles_path_iff hg).mp h
  exact hcycle.isClosedPath hclosed

/-- The fill that closed a cycle is one of its fills. -/
theorem closing_fill_of_mem_cycles (hg : g.WellFormed) {c : Cycle} (h : c ∈ g.cycles) :
    g.Fills c.owner c.filled ∧ [c.owner, c.filled] <:+: c.path := by
  obtain ⟨p, hp, hmem, hfill, hclosed⟩ := (invariant_cycles hg).found_closed c h
  refine ⟨hfill, ?_⟩
  obtain ⟨front, r, rfl⟩ := List.append_of_mem hmem
  rw [hclosed, closing_reverse hp.nodup]
  apply last_first_infix_closedPath
  rw [← hp.last, List.getLast?_append_of_ne_nil _ (List.cons_ne_nil c.filled r)]

end TransportDeck.FillGraph
