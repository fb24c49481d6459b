import TransportDeck.Proofs.Analysis.PhaseCodes
import TransportDeck.Proofs.CrossRefs.UnusedRecords
import TransportDeck.Proofs.Hierarchy.Depth

/-!
Universes that stand idle. A universe that cannot be reached from universe zero is reported once: as
unused if no cell is filled with it, by the cross references, and as unreachable otherwise, by the
hierarchy.
-/

namespace TransportDeck

open FillGraph

def universesUnder (code : Code) (reports : List Diagnostic) : List (Option Int) :=
  (reportsUnder [code] reports).map fun r => r.value? "universe"

theorem universesUnder_append (code : Code) (before after : List Diagnostic) :
    universesUnder code (before ++ after) = universesUnder code before ++ universesUnder code after := by
  simp only [universesUnder, reportsUnder_append, List.map_append]

theorem mem_filled {d : Deck} {v : Nat} : v ∈ CrossRefs.filled d ↔ ∃ u, d.Fills u v := by
  rw [CrossRefs.filled, mem_sortDistinct, List.mem_flatMap]
  constructor
  · rintro ⟨c, hc, hv⟩
    exact ⟨c.universeId, c, hc, rfl, Cell.mem_placements_iff.mp hv⟩
  · rintro ⟨_, c, hc, _, hv⟩
    exact ⟨c, hc, Cell.mem_placements_iff.mpr hv⟩

theorem CrossRefs.mem_unusedUniverses {d : Deck} {u : Nat} :
    u ∈ (CrossRefs.ofDeck d).unusedUniverses ↔
      u ≠ 0 ∧ (∃ c ∈ d.cells, c.universeId = u) ∧ ∀ v, ¬ d.Fills v u := by
  have hunused : u ∈ (CrossRefs.ofDeck d).unusedUniverses ↔
      u ∈ (CrossRefs.ofDeck d).universes.keys ∧ u ≠ 0 ∧ u ∉ filled d := by
    change u ∈ List.filter _ (CrossRefs.ofDeck d).universes.keys ↔ _
    simp
  rw [hunused, mem_keys_universes, mem_filled, not_exists]
  constructor
  · rintro ⟨hzero | hcell, hne, hfills⟩
    · exact absurd hzero hne
    · exact ⟨hne, hcell, hfills⟩
  · rintro ⟨hne, hcell, hfills⟩
    exact ⟨.inr hcell, hne, hfills⟩

theorem CrossRefs.universesUnder_unused (refs : CrossRefs) (d : Deck) :
    universesUnder .unusedUniverse (refs.reports d) =
      refs.unusedUniverses.map fun u : Nat => some (u : Int) := by
  rw [universesUnder, reportsUnder_other (by decide) (by decide)]
  have hdrop {records : List Nat} {finding : Nat → Finding} {span : Nat → Option Span}
      (h : ∀ n, (finding n).code ≠ .unusedUniverse) :
      reportsUnder [.unusedUniverse] (records.map fun n => (finding n).report (span n)) = [] :=
    reportsUnder_map_eq_nil fun n _ hmem => h n (List.mem_singleton.mp hmem)
  have hkeep : reportsUnder [.unusedUniverse]
      (refs.unusedUniverses.map fun u => (Finding.unusedUniverse u).report (refs.universeSpan u)) =
      refs.unusedUniverses.map fun u => (Finding.unusedUniverse u).report (refs.universeSpan u) :=
    reportsUnder_map_eq_self fun _ _ => List.mem_singleton.mpr rfl
  rw [unusedReports, reportsUnder_append, reportsUnder_append, reportsUnder_append,
    hdrop fun _ => Code.noConfusion, hdrop fun _ => Code.noConfusion,
    hdrop fun _ => Code.noConfusion, hkeep, List.nil_append, List.nil_append, List.nil_append,
    List.map_map]
  apply List.map_congr_left
  intro u _
  exact Finding.value?_report ..

theorem CrossRefs.universesUnder_unreachable (refs : CrossRefs) (d : Deck) :
    universesUnder .universeUnreachable (refs.reports d) = [] := by
  rw [universesUnder, reportsUnder_other (by decide) (by decide), reportsUnder_eq_nil, List.map_nil]
  intro r hr
  have hdisjoint : ∀ code ∈ Code.unusedRecords, code ∉ [Code.universeUnreachable] := by decide
  exact hdisjoint r.code (code_of_mem_unusedReports hr)

namespace FillGraph

theorem mem_keys_filledBy {g : FillGraph} {v : Nat} : v ∈ g.filledBy.keys ↔ ∃ u, g.Fills u v := by
  rw [filledBy, mem_keys_tabulate, List.mem_flatMap]
  simp only [fills_iff_row, Table.values, List.mem_map, Table.find?_eq_some_iff_mem]
  constructor
  · rintro ⟨counts, ⟨⟨u, _⟩, hentry, rfl⟩, hv⟩
    exact ⟨u, _, hentry, hv⟩
  · rintro ⟨u, counts, hentry, hv⟩
    exact ⟨counts, ⟨(u, counts), hentry, rfl⟩, hv⟩

end FillGraph

namespace Hierarchy

variable {d : Deck} {u : Nat}

theorem mem_keys_filledBy : u ∈ (ofDeck d).filledBy.keys ↔ ∃ v, d.Fills v u := by
  change u ∈ (FillGraph.ofDeck d).filledBy.keys ↔ _
  simp only [FillGraph.mem_keys_filledBy, fills_ofDeck]

theorem isSome_firstFiller? : (firstFiller? d u).isSome = true ↔ ∃ v, d.Fills v u := by
  rw [firstFiller?, List.find?_isSome]
  constructor
  · rintro ⟨c, hc, hu⟩
    exact ⟨c.universeId, c, hc, rfl, Cell.mem_placements_iff.mp (List.contains_iff_mem.mp hu)⟩
  · rintro ⟨_, c, hc, _, hu⟩
    exact ⟨c, hc, List.contains_iff_mem.mpr (Cell.mem_placements_iff.mpr hu)⟩

/-- Apart from cycles and deep nesting, the hierarchy reports unreachable universes. -/
theorem reportsUnder_other {codes : List Code} (hcycle : .circularUniverse ∉ codes)
    (hnesting : .deepNesting ∉ codes) (limit : Nat) :
    reportsUnder codes (reports d limit) =
      reportsUnder codes ((ofDeck d).unreachable.filterMap (unreachableReport? d)) := by
  have hcycles : reportsUnder codes ((FillGraph.ofDeck d).cycles.map (cycleReport d)) = [] := by
    apply reportsUnder_eq_nil
    intro r hr
    obtain ⟨c, _, rfl⟩ := List.mem_map.mp hr
    exact hcycle
  have hdeep : reportsUnder codes ((ofDeck d).nestingReports limit) = [] := by
    apply reportsUnder_eq_nil
    intro r hr
    unfold nestingReports at hr
    split at hr
    · rw [List.mem_singleton.mp hr]
      exact hnesting
    · cases hr
  change reportsUnder codes (_ ++ List.filterMap _ (ofDeck d).unreachable ++
    (ofDeck d).nestingReports limit) = _
  rw [reportsUnder_append, reportsUnder_append, hcycles, hdeep, List.nil_append, List.append_nil]

theorem code_of_unreachableReport? {r : Diagnostic} (h : unreachableReport? d u = some r) :
    r.code = .universeUnreachable := by
  obtain ⟨c, _, rfl⟩ := Option.map_eq_some_iff.mp h
  rfl

theorem universesUnder_unused (d : Deck) (limit : Nat) :
    universesUnder .unusedUniverse (reports d limit) = [] := by
  have hdisjoint : ∀ code ∈ Code.ofHierarchy, code ∉ [Code.unusedUniverse] := by decide
  rw [universesUnder, reportsUnder_eq_nil, List.map_nil]
  exact fun r hr => hdisjoint r.code (code_mem_reports d limit r hr)

/-- The unreachable universes that some cell is filled with. -/
def reportedUnreachable (d : Deck) : List Nat :=
  (ofDeck d).unreachable.filter fun u => (firstFiller? d u).isSome

theorem mem_reportedUnreachable : u ∈ reportedUnreachable d ↔
    (u ∈ (ofDeck d).universes ∧ u ∉ (ofDeck d).depth.keys) ∧ ∃ v, d.Fills v u := by
  rw [reportedUnreachable, List.mem_filter, mem_unreachable, isSome_firstFiller?]

theorem pairwise_reportedUnreachable (d : Deck) : (reportedUnreachable d).Pairwise (· < ·) :=
  ((wellFormed_ofDeck d).sorted.filter _).filter _

theorem universesUnder_unreachable (d : Deck) (limit : Nat) :
    universesUnder .universeUnreachable (reports d limit) =
      (reportedUnreachable d).map fun u : Nat => some (u : Int) := by
  rw [universesUnder, reportsUnder_other (by decide) (by decide), reportsUnder_eq_self]
  · rw [reportedUnreachable, List.map_filterMap, ← List.filterMap_eq_map, List.filterMap_filter]
    apply List.filterMap_congr
    intro u _
    unfold unreachableReport?
    cases firstFiller? d u with
    | none => rfl
    | some c => simp [Finding.value?_report, Finding.values]
  · intro r hr
    obtain ⟨u, _, hu⟩ := List.mem_filterMap.mp hr
    exact List.mem_singleton.mpr (code_of_unreachableReport? hu)

def structureReports (d : Deck) (limit : Nat) : List Diagnostic :=
  (CrossRefs.ofDeck d).reports d ++ reports d limit

def timesReported (d : Deck) (limit : Nat) (code : Code) (u : Nat) : Nat :=
  (universesUnder code (structureReports d limit)).count (some (u : Int))

theorem count_listed {us : List Nat} (h : us.Pairwise (· < ·)) (u : Nat) :
    (us.map fun u : Nat => some (u : Int)).count (some (u : Int)) = if u ∈ us then 1 else 0 := by
  have hinj : Function.Injective fun u : Nat => some (u : Int) := by
    intro u v huv
    exact Int.ofNat.inj (Option.some.inj huv)
  have hnodup : us.Nodup := h.imp Nat.ne_of_lt
  rw [List.count_map_of_injective us _ hinj u]
  split
  · next hu => exact List.count_eq_one_of_mem hnodup hu
  · next hu => exact List.count_eq_zero_of_not_mem hu

theorem timesReported_unused (limit : Nat) :
    timesReported d limit .unusedUniverse u =
      if u ∈ (CrossRefs.ofDeck d).unusedUniverses then 1 else 0 := by
  rw [timesReported, structureReports, universesUnder_append, CrossRefs.universesUnder_unused,
    universesUnder_unused, List.append_nil, count_listed (CrossRefs.pairwise_unusedUniverses d)]

theorem timesReported_unreachable (limit : Nat) :
    timesReported d limit .universeUnreachable u = if u ∈ reportedUnreachable d then 1 else 0 := by
  rw [timesReported, structureReports, universesUnder_append, CrossRefs.universesUnder_unreachable,
    universesUnder_unreachable, List.nil_append, count_listed (pairwise_reportedUnreachable d)]

/-- A universe is a node of the hierarchy for one of three reasons. -/
theorem mem_universes_iff : u ∈ (ofDeck d).universes ↔
    u = 0 ∨ (∃ c ∈ d.cells, c.universeId = u) ∨ ∃ v, d.Fills v u := by
  change u ∈ (FillGraph.ofDeck d).universes ↔ _
  rw [mem_universes_ofDeck]
  constructor
  · rintro (hzero | ⟨c, hc, hown | htarget⟩)
    · exact .inl hzero
    · exact .inr (.inl ⟨c, hc, hown.symm⟩)
    · by_cases hown : c.universeId = u
      · exact .inr (.inl ⟨c, hc, hown⟩)
      · -- only a lattice's own universe is a target without being filled in
        refine .inr (.inr ⟨c.universeId, c, hc, rfl, ?_⟩)
        unfold fillTargets at htarget
        split at htarget
        · next f hf => exact ⟨f, hf, htarget, fun _ => Ne.symm hown⟩
        · cases htarget
  · rintro (hzero | ⟨c, hc, hown⟩ | ⟨v, c, hc, _, hfilled⟩)
    · exact .inl hzero
    · exact .inr ⟨c, hc, .inl hown.symm⟩
    · exact .inr ⟨c, hc, .inr (mem_fillTargets_of_filledWith hfilled)⟩

theorem filled_of_reached (h : u ∈ (ofDeck d).depth.keys) (hu : u ≠ 0) : ∃ v, d.Fills v u := by
  rcases Relation.ReflTransGen.cases_tail (mem_keys_depth.mp h) with hzero | ⟨v, _, hfill⟩
  · exact absurd hzero hu
  · exact ⟨v, hfill⟩

theorem zero_mem_keys_depth : 0 ∈ (ofDeck d).depth.keys :=
  mem_keys_depth.mpr .refl

/-- A universe that is not reached is in one of the two lists. -/
theorem reached_or_idle (hu : u ∈ (ofDeck d).universes) (hne : u ≠ 0) :
    (u ∈ (ofDeck d).depth.keys ∧ u ∉ (CrossRefs.ofDeck d).unusedUniverses ∧
      u ∉ reportedUnreachable d) ∨
    (u ∉ (ofDeck d).depth.keys ∧ u ∈ (CrossRefs.ofDeck d).unusedUniverses ∧
      u ∉ reportedUnreachable d) ∨
    (u ∉ (ofDeck d).depth.keys ∧ u ∉ (CrossRefs.ofDeck d).unusedUniverses ∧
      u ∈ reportedUnreachable d) := by
  have hfilled (hfills : ∃ v, d.Fills v u) : u ∉ (CrossRefs.ofDeck d).unusedUniverses := by
    intro hunused
    obtain ⟨v, hfill⟩ := hfills
    exact (CrossRefs.mem_unusedUniverses.mp hunused).2.2 v hfill
  by_cases hreached : u ∈ (ofDeck d).depth.keys
  · refine .inl ⟨hreached, hfilled (filled_of_reached hreached hne), ?_⟩
    exact fun h => (mem_reportedUnreachable.mp h).1.2 hreached
  · by_cases hfills : ∃ v, d.Fills v u
    · refine .inr (.inr ⟨hreached, hfilled hfills, ?_⟩)
      exact mem_reportedUnreachable.mpr ⟨⟨hu, hreached⟩, hfills⟩
    · -- what is not filled in is a universe for the sake of its cells
      have hcell : ∃ c ∈ d.cells, c.universeId = u := by
        rcases mem_universes_iff.mp hu with hzero | hcell | hfill
        · exact absurd hzero hne
        · exact hcell
        · exact absurd hfill hfills
      refine .inr (.inl ⟨hreached, ?_, fun h => hfills (mem_reportedUnreachable.mp h).2⟩)
      exact CrossRefs.mem_unusedUniverses.mpr ⟨hne, hcell, not_exists.mp hfills⟩

/-- Only universes other than zero are reported as idle. -/
theorem universe_of_reported {limit : Nat} {named : Option Int} {code : Code}
    (hcode : code ∈ [Code.unusedUniverse, .universeUnreachable])
    (hnamed : named ∈ universesUnder code (structureReports d limit)) :
    ∃ u ∈ (ofDeck d).universes, u ≠ 0 ∧ named = some (u : Int) := by
  rw [structureReports, universesUnder_append] at hnamed
  rcases List.mem_cons.mp hcode with rfl | hcode
  · rw [CrossRefs.universesUnder_unused, universesUnder_unused, List.append_nil] at hnamed
    obtain ⟨u, hu, rfl⟩ := List.mem_map.mp hnamed
    obtain ⟨hne, hcell, _⟩ := CrossRefs.mem_unusedUniverses.mp hu
    exact ⟨u, mem_universes_iff.mpr (.inr (.inl hcell)), hne, rfl⟩
  · rw [List.mem_singleton.mp hcode, CrossRefs.universesUnder_unreachable,
      universesUnder_unreachable, List.nil_append] at hnamed
    obtain ⟨u, hu, rfl⟩ := List.mem_map.mp hnamed
    obtain ⟨⟨huniverse, hunreached⟩, _⟩ := mem_reportedUnreachable.mp hu
    refine ⟨u, huniverse, ?_, rfl⟩
    rintro rfl
    exact hunreached zero_mem_keys_depth

/-- The cross references and the hierarchy agree on which universes stand idle. Each universe besides
zero is either reached, or reported once as unused because no cell is filled with it, or reported
once as unreachable although some cell is. Nothing else is reported in either way, and the unused
universes are those of cells that are not listed as filled into any other. -/
theorem idle_universes_reported_once (d : Deck) (limit : Nat) :
    (∀ u ∈ (ofDeck d).universes, u ≠ 0 →
      (u ∈ (ofDeck d).depth.keys ∧ timesReported d limit .unusedUniverse u = 0 ∧
        timesReported d limit .universeUnreachable u = 0) ∨
      (u ∉ (ofDeck d).depth.keys ∧ timesReported d limit .unusedUniverse u = 1 ∧
        timesReported d limit .universeUnreachable u = 0) ∨
      (u ∉ (ofDeck d).depth.keys ∧ timesReported d limit .unusedUniverse u = 0 ∧
        timesReported d limit .universeUnreachable u = 1)) ∧
    (∀ code ∈ [Code.unusedUniverse, .universeUnreachable],
      ∀ named ∈ universesUnder code (structureReports d limit),
        ∃ u ∈ (ofDeck d).universes, u ≠ 0 ∧ named = some (u : Int)) ∧
    (CrossRefs.ofDeck d).unusedUniverses.Pairwise (· < ·) ∧
    ∀ u, u ∈ (CrossRefs.ofDeck d).unusedUniverses ↔
      u ≠ 0 ∧ (∃ c ∈ d.cells, c.universeId = u) ∧ u ∉ (ofDeck d).filledBy.keys := by
  refine ⟨?_, fun code hcode named => universe_of_reported hcode,
    CrossRefs.pairwise_unusedUniverses d, ?_⟩
  · intro u hu hne
    rw [timesReported_unused, timesReported_unreachable]
    rcases reached_or_idle hu hne with
      ⟨hreached, hused, hrest⟩ | ⟨hunreached, hunused, hrest⟩ | ⟨hunreached, hused, hrest⟩
    · exact .inl ⟨hreached, if_neg hused, if_neg hrest⟩
    · exact .inr (.inl ⟨hunreached, if_pos hunused, if_neg hrest⟩)
    · exact .inr (.inr ⟨hunreached, if_neg hused, if_pos hrest⟩)
  · intro u
    rw [CrossRefs.mem_unusedUniverses, mem_keys_filledBy, not_exists]

/-- Universe 1 is reached, universe 2 is a lattice of itself, and universes 3 and 4 contain each other
and a universe 5 that does not exist. -/
def idleUniverses : Deck where
  title := ""
  messages := []
  cells :=
    let lattice : FillArray := ⟨⟨0, 0⟩, ⟨0, 0⟩, ⟨0, 0⟩, [{ signedUniverse := 2 }]⟩
    [(1, 0, .simple 1 none), (2, 2, .array lattice), (3, 3, .simple 4 none), (4, 4, .simple 3 none),
      (5, 4, .simple 5 none)].map
        fun (number, u, fill) => { number, params := { signedUniverse := some u, fill := some fill } }
  surfaces := []
  data := []

theorem idle_universes_out_of_reach :
    2 ∈ (CrossRefs.ofDeck idleUniverses).unusedUniverses ∧
    ∀ u ∈ [2, 3, 4, 5], timesReported idleUniverses 10 .unusedUniverse u +
      timesReported idleUniverses 10 .universeUnreachable u = 1 := by
  obtain ⟨hclasses, _, _, hunused⟩ := idle_universes_reported_once idleUniverses 10
  constructor
  · have hcell : ∃ c ∈ idleUniverses.cells, c.universeId = 2 := by decide +kernel
    exact (hunused 2).mpr ⟨by decide, hcell, by decide +kernel⟩
  · have hlisted : ∀ u ∈ [2, 3, 4, 5], u ∈ (ofDeck idleUniverses).universes ∧ u ≠ 0 ∧
        u ∉ (ofDeck idleUniverses).depth.keys := by decide +kernel
    intro u hu
    obtain ⟨huniverse, hne, hunreached⟩ := hlisted u hu
    rcases hclasses u huniverse hne with ⟨hreached, _⟩ | ⟨_, hunused, hreached⟩ | ⟨_, hused, hcycle⟩
    · exact absurd hreached hunreached
    · rw [hunused, hreached]
    · rw [hused, hcycle]

end Hierarchy

end TransportDeck
