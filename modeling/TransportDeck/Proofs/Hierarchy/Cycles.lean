import Mathlib.Data.List.Forall2
import TransportDeck.Proofs.Analysis.Errors
import TransportDeck.Proofs.FillGraph.CycleSearch
import TransportDeck.Proofs.Reading.Reports

/-!
The cycles in the hierarchy of a deck. They are reported exactly if there are any, each with the cell
whose fill closes it. Not every cycle is listed: of cycles that share fills only those are found that
lie at the end of a first path.
-/

namespace TransportDeck

open FillGraph

def Deck.FirstFill (d : Deck) (u v : Nat) (c : Cell) : Prop :=
  ∃ before after, d.cells = before ++ c :: after ∧ c.universeId = u ∧ c.FilledWith v ∧
    ∀ earlier ∈ before, ¬ (earlier.universeId = u ∧ earlier.FilledWith v)

namespace Hierarchy

theorem cycles_ofDeck (d : Deck) :
    (ofDeck d).cycles = (FillGraph.ofDeck d).cycles.map FillGraph.Cycle.path := rfl

theorem fills_iff_any {c : Cell} {u v : Nat} :
    (c.universeId == u && c.placements.contains v) = true ↔
      c.universeId = u ∧ c.FilledWith v := by
  rw [Bool.and_eq_true, beq_iff_eq, List.contains_iff_mem, Cell.mem_placements_iff]

theorem firstFill_of_find {d : Deck} {u v : Nat} {c : Cell} (h : firstFill? d u v = some c) :
    d.FirstFill u v c := by
  obtain ⟨hc, before, after, hcells, hbefore⟩ := List.find?_eq_some_iff_append.mp h
  have ⟨hu, hv⟩ := fills_iff_any.mp hc
  refine ⟨before, after, hcells, hu, hv, fun earlier hmem hfills => ?_⟩
  have hnot := hbefore earlier hmem
  rw [fills_iff_any.mpr hfills] at hnot
  exact Bool.noConfusion hnot

theorem exists_firstFill {d : Deck} {u v : Nat} (h : d.Fills u v) :
    ∃ c, firstFill? d u v = some c := by
  obtain ⟨c, hc, hfills⟩ := h
  exact Option.isSome_iff_exists.mp
    (List.find?_isSome.mpr ⟨c, hc, fills_iff_any.mpr hfills⟩)

/-- The report on a closed path names a fill along it and the first cell with that fill. -/
def ReportsCycle (d : Deck) (p : List Nat) (r : Diagnostic) : Prop :=
  ∃ u v c, [u, v] <:+: p ∧ d.FirstFill u v c ∧
    r = (Finding.cycle p c.number v).report (some c.span) ∧
    r.value? "universe" = some (v : Int) ∧ r.value? "cell" = some (c.number : Int)

theorem reportsCycle_cycleReport {d : Deck} {c : FillGraph.Cycle}
    (hc : c ∈ (FillGraph.ofDeck d).cycles) : ReportsCycle d c.path (cycleReport d c) := by
  obtain ⟨hfill, hinfix⟩ := closing_fill_of_mem_cycles (wellFormed_ofDeck d) hc
  obtain ⟨cell, hcell⟩ := exists_firstFill (fills_ofDeck.mp hfill)
  have hreport : cycleReport d c =
      (Finding.cycle c.path cell.number c.filled).report (some cell.span) := by
    simp only [cycleReport, hcell, Option.map_some, Option.getD_some]
  refine ⟨c.owner, c.filled, cell, hinfix, firstFill_of_find hcell, hreport, ?_, ?_⟩
  · rw [hreport, Finding.value?_report]
    rfl
  · rw [hreport, Finding.value?_report]
    rfl

/-- Of the reports on a hierarchy those on cycles come first, one for each cycle found. -/
theorem circular_reports (d : Deck) (limit : Nat) :
    ((reports d limit).filter fun r => r.code = .circularUniverse) =
      (FillGraph.ofDeck d).cycles.map (cycleReport d) := by
  have hcycles : ((FillGraph.ofDeck d).cycles.map (cycleReport d)).filter
      (fun r => r.code = .circularUniverse) = (FillGraph.ofDeck d).cycles.map (cycleReport d) := by
    refine List.filter_eq_self.mpr fun r hr => ?_
    obtain ⟨c, _, rfl⟩ := List.mem_map.mp hr
    exact decide_eq_true rfl
  have hunreachable : ((ofDeck d).unreachable.filterMap (unreachableReport? d)).filter
      (fun r => r.code = .circularUniverse) = [] := by
    refine List.filter_eq_nil_iff.mpr fun r hr => ?_
    obtain ⟨u, _, hu⟩ := List.mem_filterMap.mp hr
    obtain ⟨cell, _, rfl⟩ := Option.map_eq_some_iff.mp hu
    exact of_decide_eq_false rfl
  have hnesting : ((ofDeck d).nestingReports limit).filter
      (fun r => r.code = .circularUniverse) = [] := by
    unfold nestingReports
    split <;> rfl
  change List.filter _ (_ ++ _ ++ _) = _
  rw [List.filter_append, List.filter_append, hcycles]
  change _ ++ List.filter _ (List.filterMap _ (ofDeck d).unreachable) ++
    List.filter _ ((ofDeck d).nestingReports limit) = _
  rw [hunreachable, hnesting, List.append_nil, List.append_nil]

/-- Where the hierarchy reports no error, no universe contains itself. -/
theorem acyclic_of_no_errors {d : Deck} {limit : Nat}
    (h : ∀ r ∈ reports d limit, r.isError = false) (u : Nat) :
    ¬ Relation.TransGen d.Fills u u := by
  have hnone : (FillGraph.ofDeck d).cycles.map (cycleReport d) = [] := by
    refine eq_nil_of_clean (p := Diagnostic.isError) (fun r hr => ?_) fun r hr => h r ?_
    · obtain ⟨c, _, rfl⟩ := List.mem_map.mp hr
      rfl
    · simp only [reports, List.mem_append]
      exact .inl (.inl hr)
  have hcycles := List.map_eq_nil_iff.mp hnone
  rw [← fills_ofDeck_eq]
  exact (cycles_eq_nil_iff (wellFormed_ofDeck d)).mp hcycles u

/-- The search for cycles ends, whatever state it starts from, and finds a cycle exactly if some
universe contains itself. What it lists are closed paths from their smallest universes, each once and
with one report, which names a fill along the path and the first cell with it. -/
theorem cycles_detected_and_reported (d : Deck) (limit : Nat) :
    (WellFounded fun after before => Step (FillGraph.ofDeck d) before after) ∧
    (∀ unvisited found path, Relation.ReflTransGen (Step (FillGraph.ofDeck d))
      ⟨unvisited, found, path⟩
      ⟨((FillGraph.ofDeck d).explore unvisited found path).1,
        ((FillGraph.ofDeck d).explore unvisited found path).2, []⟩) ∧
    ((ofDeck d).cycles = [] ↔ ∀ u, ¬ Relation.TransGen d.Fills u u) ∧
    (∀ p ∈ (ofDeck d).cycles, IsClosedPath d.Fills p) ∧
    (ofDeck d).cycles.Nodup ∧
    List.Forall₂ (ReportsCycle d) (ofDeck d).cycles
      ((reports d limit).filter fun r => r.code = .circularUniverse) := by
  have hg := wellFormed_ofDeck d
  refine ⟨wellFounded_step _, explore_steps _, ?_, ?_, nodup_cycles hg, ?_⟩
  · rw [← fills_ofDeck_eq, ← cycles_eq_nil_iff hg, cycles_ofDeck, List.map_eq_nil_iff]
  · intro p hp
    rw [← fills_ofDeck_eq]
    exact isClosedPath_of_mem_cycles hg hp
  · rw [circular_reports, cycles_ofDeck, List.forall₂_map_left_iff, List.forall₂_map_right_iff,
      List.forall₂_same]
    exact fun c hc => reportsCycle_cycleReport hc

/-- Every closed path that is listed is that of a cycle. A cycle has its closed path listed, and then
once, exactly if it lies at the end of a first path; so all cycles of a deck are listed exactly if all
of them lie so. -/
theorem cycles_listed_iff_onFirstPath (d : Deck) :
    (∀ p ∈ (ofDeck d).cycles, ∃ c, IsCycle d.Fills c ∧ ClosesFromLeast c p) ∧
    (∀ c p, IsCycle d.Fills c → ClosesFromLeast c p →
      ((ofDeck d).cycles.count p = 1 ↔ OnFirstPath d.Fills c) ∧
      ((ofDeck d).cycles.count p = 0 ↔ ¬ OnFirstPath d.Fills c)) ∧
    ((∀ c p, IsCycle d.Fills c → ClosesFromLeast c p → (ofDeck d).cycles.count p = 1) ↔
      ∀ c, IsCycle d.Fills c → OnFirstPath d.Fills c) := by
  have hg := wellFormed_ofDeck d
  have hnodup : (ofDeck d).cycles.Nodup := nodup_cycles hg
  have hmem {p : List Nat} : p ∈ (ofDeck d).cycles ↔
      ∃ c, IsCycle d.Fills c ∧ OnFirstPath d.Fills c ∧ ClosesFromLeast c p := by
    rw [← fills_ofDeck_eq, cycles_ofDeck]
    exact mem_cycles_path_iff hg
  have hlisted {c p : List Nat} (hc : IsCycle d.Fills c) (hp : ClosesFromLeast c p) :
      p ∈ (ofDeck d).cycles ↔ OnFirstPath d.Fills c := by
    refine ⟨fun h => ?_, fun h => hmem.mpr ⟨c, hc, h, hp⟩⟩
    -- cycles with one closed path are rotations of each other
    obtain ⟨c', _, ⟨front, r, w, hrot, hfirst⟩, least, rest, rfl, hrot', _⟩ := hmem.mp h
    obtain ⟨least', rest', hpath, hrot'', _⟩ := hp
    have hsame : least :: rest = least' :: rest' := List.append_cancel_right (by
      have hheads := (List.cons.inj hpath).1
      rw [hheads] at hpath ⊢
      exact hpath)
    rw [hsame] at hrot'
    exact ⟨front, r, w, hrot.trans (hrot'.symm.trans hrot''), hfirst⟩
  have hcount (p : List Nat) : (ofDeck d).cycles.count p = 1 ↔ p ∈ (ofDeck d).cycles := by
    rw [← List.count_pos_iff]
    have hle := List.nodup_iff_count_le_one.mp hnodup p
    omega
  refine ⟨fun p hp => ?_, fun c p hc hp => ⟨?_, ?_⟩, fun hall c hc => ?_, fun hall c p hc hp => ?_⟩
  · obtain ⟨c, hc, _, hp⟩ := hmem.mp hp
    exact ⟨c, hc, hp⟩
  · rw [hcount, hlisted hc hp]
  · rw [List.count_eq_zero, hlisted hc hp]
  · have hp := closesFromLeast_closedPath hc.ne_nil
    exact (hlisted hc hp).mp ((hcount _).mp (hall c _ hc hp))
  · exact (hcount p).mpr ((hlisted hc hp).mpr (hall c hc))

def twoWaysAround : Deck where
  title := ""
  messages := []
  cells :=
    [(1, 1, 2), (2, 1, 3), (3, 2, 3), (4, 3, 1)].map fun (number, u, v) =>
      { number, params := { signedUniverse := some u, fill := some (.simple v none) } }
  surfaces := []
  data := []

/-- Of the two cycles the shorter one is not listed: the fill of universe 1 with universe 3 is
followed only after universe 3 has been left. -/
theorem shorter_way_not_listed :
    IsCycle twoWaysAround.Fills [1, 3] ∧ ClosesFromLeast [1, 3] [1, 3, 1] ∧
      (ofDeck twoWaysAround).cycles = [[1, 2, 3, 1]] ∧
      (ofDeck twoWaysAround).cycles.count [1, 3, 1] = 0 := by
  have hlisted : (ofDeck twoWaysAround).cycles = [[1, 2, 3, 1]] := by decide +kernel
  have hclosed : ClosesFromLeast [1, 3] [1, 3, 1] :=
    ⟨1, [3], rfl, List.IsRotated.refl _, by decide⟩
  refine ⟨⟨by decide, 1, [3], rfl, ?_⟩, hclosed, hlisted, by rw [hlisted]; decide⟩
  rw [← fills_ofDeck_eq, List.cons_append, List.singleton_append, List.isChain_cons_cons,
    List.isChain_cons_cons]
  have hgraph : 3 ∈ (FillGraph.ofDeck twoWaysAround).targets 1 ∧
      1 ∈ (FillGraph.ofDeck twoWaysAround).targets 3 := by decide +kernel
  exact ⟨hgraph.1, hgraph.2, List.isChain_singleton 1⟩

end Hierarchy

end TransportDeck
