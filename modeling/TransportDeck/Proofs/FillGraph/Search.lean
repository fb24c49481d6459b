import Mathlib.Logic.Relation
import TransportDeck.Proofs.FillGraph.Fills
import TransportDeck.Proofs.FillGraph.FirstPath

/-!
The depth first search for cycles, step by step. A universe is unvisited, on the path, or left for
good. What is known of the fills followed so far is kept by every step: a fill back into the path has
its cycle recorded, and behind any other fill there are only universes that have been left.
-/

namespace TransportDeck.FillGraph

/-- Where a search stands. Paths list their end first. -/
structure SearchState where
  unvisited : List Nat
  found : List Cycle
  path : List Frame

def names (path : List Frame) : List Nat := path.map (·.universeId)

/-- One step: the path gets shorter where every fill of its end has been followed, longer where a
fill leads to an unvisited universe, and stays where it leads to one that has been visited. -/
inductive Step (g : FillGraph) : SearchState → SearchState → Prop
  | leave (unvisited : List Nat) (found : List Cycle) (u : Nat) (outer : List Frame) :
    Step g ⟨unvisited, found, ⟨u, []⟩ :: outer⟩ ⟨unvisited, found, outer⟩
  | enter (unvisited : List Nat) (found : List Cycle) (u v : Nat) (pending : List Nat)
      (outer : List Frame) (h : v ∈ unvisited) :
    Step g ⟨unvisited, found, ⟨u, v :: pending⟩ :: outer⟩
      ⟨unvisited.erase v, found, ⟨v, g.targets v⟩ :: ⟨u, pending⟩ :: outer⟩
  | follow (unvisited : List Nat) (found : List Cycle) (u v : Nat) (pending : List Nat)
      (outer : List Frame) (h : v ∉ unvisited) :
    Step g ⟨unvisited, found, ⟨u, v :: pending⟩ :: outer⟩
      ⟨unvisited, record (⟨u, pending⟩ :: outer) u v found, ⟨u, pending⟩ :: outer⟩

def SearchState.work (g : FillGraph) (s : SearchState) : Nat :=
  g.workAhead s.unvisited + Frame.work s.path

theorem work_lt_of_step {g : FillGraph} {s t : SearchState} (h : Step g s t) :
    t.work g < s.work g := by
  cases h with
  | leave unvisited found u outer => simp [SearchState.work, Frame.work]
  | enter unvisited found u v pending outer hv =>
    simp only [SearchState.work, Frame.work, List.foldr_cons, List.length_cons]
    rw [workAhead_erase g hv]
    omega
  | follow unvisited found u v pending outer hv => simp [SearchState.work, Frame.work]

/-- No search goes on for ever, from whatever state it starts. -/
theorem wellFounded_step (g : FillGraph) : WellFounded fun t s => Step g s t :=
  Subrelation.wf work_lt_of_step (measure (SearchState.work g)).wf

/-- The recursion runs through these steps until the path is empty. -/
theorem explore_steps (g : FillGraph) (unvisited : List Nat) (found : List Cycle)
    (path : List Frame) :
    Relation.ReflTransGen (Step g) ⟨unvisited, found, path⟩
      ⟨(g.explore unvisited found path).1, (g.explore unvisited found path).2, []⟩ := by
  fun_induction explore g unvisited found path with
  | case1 unvisited found => exact .refl
  | case2 unvisited found u outer ih => exact .head (.leave unvisited found u outer) ih
  | case3 unvisited found u v pending outer hv ih =>
    exact .head (.enter unvisited found u v pending outer hv) ih
  | case4 unvisited found u v pending outer hv ih =>
    exact .head (.follow unvisited found u v pending outer hv) ih

section Record

variable {path : List Frame} {owner filled : Nat} {found : List Cycle}

/-- A cycle is recorded where the fill leads back into the path, unless its closed path is known. -/
theorem record_eq : record path owner filled found =
    if filled ∈ names path ∧ closing (names path) filled ∉ found.map Cycle.path then
      found ++ [⟨closing (names path) filled, owner, filled⟩]
    else found := by
  have hknown : (found.any fun c => c.path == closing (names path) filled) = true ↔
      closing (names path) filled ∈ found.map Cycle.path := by
    simp only [List.any_eq_true, beq_iff_eq, List.mem_map]
  change (if (names path).contains filled = true then
    if (found.any fun c => c.path == closing (names path) filled) = true then found
    else found ++ [⟨closing (names path) filled, owner, filled⟩] else found) = _
  simp only [hknown, List.contains_iff_mem]
  by_cases hmem : filled ∈ names path
  · by_cases hold : closing (names path) filled ∈ found.map Cycle.path
    · rw [if_pos hmem, if_pos hold, if_neg fun h => h.2 hold]
    · rw [if_pos hmem, if_neg hold, if_pos ⟨hmem, hold⟩]
  · rw [if_neg hmem, if_neg fun h => hmem h.1]

theorem mem_record {c : Cycle} (h : c ∈ record path owner filled found) :
    c ∈ found ∨ filled ∈ names path ∧ c = ⟨closing (names path) filled, owner, filled⟩ := by
  rw [record_eq] at h
  split at h
  · next hnew =>
    rcases List.mem_append.mp h with h | h
    · exact .inl h
    · exact .inr ⟨hnew.1, List.mem_singleton.mp h⟩
  · exact .inl h

theorem mem_record_of_mem {c : Cycle} (h : c ∈ found) : c ∈ record path owner filled found := by
  rw [record_eq]
  split
  · exact List.mem_append_left _ h
  · exact h

theorem closing_mem_record (h : filled ∈ names path) :
    closing (names path) filled ∈ (record path owner filled found).map Cycle.path := by
  rw [record_eq]
  by_cases hold : closing (names path) filled ∈ found.map Cycle.path
  · rwa [if_neg fun hnew => hnew.2 hold]
  · rw [if_pos ⟨h, hold⟩, List.map_append]
    exact List.mem_append_right _ List.mem_cons_self

theorem nodup_record (h : (found.map Cycle.path).Nodup) :
    ((record path owner filled found).map Cycle.path).Nodup := by
  rw [record_eq]
  split
  · next hnew =>
    rw [List.map_append, List.nodup_append]
    refine ⟨h, List.nodup_singleton _, ?_⟩
    rintro p hp q hq rfl
    have hclosing : p = closing (names path) filled := List.mem_singleton.mp hq
    exact hnew.2 (hclosing ▸ hp)
  · exact h

end Record

end TransportDeck.FillGraph
