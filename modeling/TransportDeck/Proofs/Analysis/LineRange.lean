import TransportDeck.Proofs.Analysis.Shapes
import TransportDeck.Proofs.Reading.Places

/-!
Where the reports of an analysis stand. Those that stand on lines at all stand on lines of the text,
but for one: a text that is a message block only is said to miss its title past its end.
-/

namespace TransportDeck

section Phases

variable {P : Span → Prop} {d : Deck}

namespace CrossRefs

/-- What a table of lines gives for a number are the lines of a record. -/
theorem placed_find? {α : Type} {records : List α} {number : α → Nat} {spanOf : α → Span}
    (h : ∀ a ∈ records, P (spanOf a)) {n : Nat} :
    ∀ span ∈ (Table.ofList (records.map fun a => (number a, spanOf a))).find? n, P span := by
  intro span hspan
  rw [Table.find?_ofList, Option.mem_def, List.lookup_eq_some_iff] at hspan
  obtain ⟨before, after, hentries, _⟩ := hspan
  have hmem : (n, span) ∈ records.map fun a => (number a, spanOf a) := by
    rw [hentries]
    simp
  obtain ⟨a, ha, hentry⟩ := List.mem_map.mp hmem
  obtain ⟨_, rfl⟩ := Prod.mk.inj hentry
  exact h a ha

theorem placed_unusedReports (h : d.Placed P) : Placed P (ofDeck d).unusedReports := by
  have huniverse (u : Nat) : ∀ span ∈ (ofDeck d).universeSpan u, P span := by
    intro span hspan
    obtain ⟨number, _, hfound⟩ := Option.bind_eq_some_iff.mp hspan
    exact placed_find? h.cells span hfound
  have hsurfaces : Placed P ((ofDeck d).unusedSurfaces.map fun s =>
      (Finding.unusedSurface s).report ((ofDeck d).surfaces.find? s)) :=
    placed_map _ fun _ => placed_find? h.surfaces
  have hmaterials : Placed P ((ofDeck d).unusedMaterials.map fun m =>
      (Finding.unusedMaterial m).report ((ofDeck d).materials.find? m)) :=
    placed_map _ fun _ => placed_find? h.materials
  have htransforms : Placed P ((ofDeck d).unusedTransforms.map fun t =>
      (Finding.unusedTransform t).report ((ofDeck d).transforms.find? t)) :=
    placed_map _ fun _ => placed_find? h.transforms
  exact ((hsurfaces.append hmaterials).append htransforms).append (placed_map _ huniverse)

theorem placed_reports (h : d.Placed P) : Placed P ((ofDeck d).reports d) := by
  have hdangling {span : Span} (hspan : P span) (references : List Reference) :
      Placed P ((ofDeck d).dangling span references) := placed_on hspan _ fun _ => rfl
  have himportance {card : DataCard} (hspan : P card.span) : Placed P (checkImportance d card) := by
    unfold checkImportance
    split
    · split
      · exact placed_nil
      · exact placed_findings hspan [_]
    · exact placed_nil
  have hcells := placed_flatMap fun c hc => hdangling (h.cells c hc) c.references
  have hsurfaces := placed_flatMap fun s hs => hdangling (h.surfaces s hs) s.references
  have hdata := placed_flatMap fun card hcard =>
    (hdangling (h.data card hcard) card.references).append (himportance (h.data card hcard))
  exact ((hcells.append hsurfaces).append hdata).append (placed_unusedReports h)

end CrossRefs

theorem Geometry.placed_reports (h : d.Placed P) (tolerance : Float) :
    Placed P (reports d tolerance) := by
  have hcells := placed_flatMap fun c hc => placed_findings (h.cells c hc) (checkCell d tolerance c)
  have hsurfaces := placed_flatMap fun s hs => placed_findings (h.surfaces s hs) (checkSurface s)
  have hdata := placed_flatMap fun card hcard =>
    placed_findings (h.data card hcard) (checkCard tolerance card)
  exact (hcells.append hsurfaces).append hdata

theorem Hierarchy.placed_reports (h : d.Placed P) (limit : Nat) : Placed P (reports d limit) := by
  have hfound {p : Cell → Bool} : ∀ span ∈ (d.cells.find? p).map Cell.span, P span := by
    intro span hspan
    obtain ⟨cell, hcell, rfl⟩ := Option.map_eq_some_iff.mp hspan
    exact h.cells cell (List.mem_of_find?_eq_some hcell)
  have hcycles : Placed P ((FillGraph.ofDeck d).cycles.map (cycleReport d)) :=
    placed_map _ fun _ => hfound
  have hunreachable (universes : List Nat) :
      Placed P (universes.filterMap (unreachableReport? d)) := by
    intro r hr
    obtain ⟨u, _, hreport⟩ := List.mem_filterMap.mp hr
    obtain ⟨cell, hcell, rfl⟩ := Option.map_eq_some_iff.mp hreport
    intro span hspan
    exact hfound span (Option.map_eq_some_iff.mpr ⟨cell, hcell, Option.mem_some.mp hspan⟩)
  have hnesting (hierarchy : Hierarchy) : Placed P (hierarchy.nestingReports limit) := by
    unfold nestingReports
    split
    · exact placed_nowhere [_]
    · exact placed_nil
  exact (hcycles.append (hunreachable _)).append (hnesting _)

end Phases

namespace Analysis

structure Placed (P : Span → Prop) (a : Analysis) : Prop where
  diagnostics : TransportDeck.Placed P a.diagnostics
  deck : ∀ model ∈ a.model, model.deck.Placed P

variable {P : Span → Prop}

theorem placed_ofFault {fault : LayoutFault} (h : P fault.span) :
    (ofFault (.layout fault)).Placed P where
  diagnostics r hr span hspan := by
    rw [List.mem_singleton.mp hr] at hspan
    exact Option.mem_some.mp hspan ▸ h
  deck _ hmodel := absurd hmodel (Option.not_mem_none _)

theorem placed_ofReading (settings : Settings) {blocks : Blocks}
    (h : ∀ card ∈ blocks.cards, P card.span) : (ofReading settings (.ofBlocks blocks)).Placed P := by
  obtain ⟨hdeck, hreading⟩ := Reading.placed_ofBlocks h
  have hphases : TransportDeck.Placed P
      (phases settings (.ofBlocks blocks) (.ofDeck (Reading.ofBlocks blocks).deck)) :=
    (((hreading.append (CrossRefs.placed_reports hdeck)).append
      (Geometry.placed_reports hdeck settings.tolerance)).append
      (Hierarchy.placed_reports hdeck settings.maxNesting)).append (placed_nowhere [_, _])
  constructor
  · exact hphases.subset fun r hr => mem_bySeverity.mp (kept_subset hr)
  · intro model hmodel
    cases hmodel
    exact hdeck

/-- All lines that an analysis names, in reports and in records, are lines of the text, unless the text
is a message block only, whose title is missed past the end. -/
theorem placed_iff_not_onlyMessages (settings : Settings) (text : String) :
    (ofText settings text).Placed (Span.Within (max (Text.lines text.toList).length 1)) ↔
      ¬ Blocks.OnlyMessages (Blocks.numbered (Text.lines text.toList)) := by
  constructor
  · intro hplaced honly
    obtain ⟨line, hpast, hfault⟩ := Blocks.ofLines_onlyMessages honly
    have hanalysis : ofText settings text = ofFault (.layout (.missingTitle line)) := by
      rw [ofText, Blocks.ofText, hfault]
    rw [hanalysis] at hplaced
    have hline := (hplaced.diagnostics _ List.mem_cons_self _ rfl).inside
    change max line line ≤ _ at hline
    omega
  · intro hmore
    have hends := Blocks.ends_ofLines hmore
    rw [← Blocks.ofText] at hends
    rw [ofText]
    cases hblocks : Blocks.ofText text with
    | error fault =>
      rw [hblocks] at hends
      exact placed_ofFault hends
    | ok blocks =>
      rw [hblocks] at hends
      exact placed_ofReading settings hends

/-- The title of a text of one line is missed on its third line. -/
theorem title_missed_past_end :
    Text.lines "message: x".toList = ["message: x".toList] ∧
    (ofText {} "message: x").diagnostics = [(LayoutFault.missingTitle 3).report] ∧
    ¬ ∀ (settings : Settings) (text : String),
      (ofText settings text).Placed (Span.Within (max (Text.lines text.toList).length 1)) := by
  have hlines : Text.lines "message: x".toList = ["message: x".toList] := by decide
  have hfault : Blocks.ofText "message: x" = .error (.missingTitle 3) := by decide
  have hdiagnostics : (ofText {} "message: x").diagnostics =
      [(LayoutFault.missingTitle 3).report] := by
    rw [ofText, hfault]
    rfl
  refine ⟨hlines, hdiagnostics, fun hplaced => ?_⟩
  have hreports := (hplaced {} "message: x").diagnostics
  rw [hdiagnostics, hlines] at hreports
  have hline : 3 ≤ 1 := (hreports _ List.mem_cons_self _ rfl).inside
  omega

end Analysis

end TransportDeck
