import TransportDeck.Proofs.Analysis.PhaseCodes
import TransportDeck.Proofs.CrossRefs.UnusedRecords
import TransportDeck.Proofs.Like.Expand

namespace TransportDeck

structure CrossRefs.Exact (refs : CrossRefs) (d : Deck) : Prop where
  surface_users : ∀ s, d.ListsAt (fun c => s ∈ c.region.surfaceIds) (refs.surfaceUsers.find? s)
  material_users : ∀ m, d.ListsAt (fun c => c.MadeOf m) (refs.materialUsers.find? m)
  once_in_universes : ∀ c ∈ d.cells, refs.universes.values.flatten.count c.number = 1
  own_universe : ∀ c ∈ d.cells, ∃ members,
    refs.universes.find? c.universeId = some members ∧ c.number ∈ members
  universe_members : ∀ u members, refs.universes.find? u = some members →
    d.Lists (fun c => c.universeId = u) members
  ascending_surfaces : refs.unusedSurfaces.Pairwise (· < ·)
  unused_surface : ∀ s, s ∈ refs.unusedSurfaces ↔
    (∃ x ∈ d.surfaces, x.number = s) ∧ ¬ d.MentionsSurface s
  ascending_materials : refs.unusedMaterials.Pairwise (· < ·)
  unused_material : ∀ m, m ∈ refs.unusedMaterials ↔
    (∃ x ∈ d.materials, x.number = m) ∧ ¬ ∃ c ∈ d.cells, c.MadeOf m
  ascending_transforms : refs.unusedTransforms.Pairwise (· < ·)
  unused_transform : ∀ t, t ∈ refs.unusedTransforms ↔
    (∃ x ∈ d.transforms, x.number = t) ∧ ¬ d.MentionsTransform t
  ascending_universes : refs.unusedUniverses.Pairwise (· < ·)

def CrossRefs.Warns (refs : CrossRefs) (reports : List Diagnostic) : Prop :=
  (reportsUnder Code.unusedRecords reports).map Diagnostic.facts =
    warnings .unusedSurface "surface" refs.unusedSurfaces ++
    warnings .unusedMaterial "material" refs.unusedMaterials ++
    warnings .unusedTransform "transform" refs.unusedTransforms ++
    warnings .unusedUniverse "universe" refs.unusedUniverses

theorem CrossRefs.exact_ofDeck {d : Deck} (hd : (d.cells.map (·.number)).Nodup) :
    (ofDeck d).Exact d where
  surface_users := listsAt_surfaceUsers hd
  material_users := listsAt_materialUsers hd
  once_in_universes _ := count_members hd
  own_universe _ := exists_members_of_cell hd
  universe_members _ _ := lists_of_find?_universes hd
  ascending_surfaces := pairwise_unused ..
  unused_surface _ := mem_unusedSurfaces
  ascending_materials := pairwise_unused ..
  unused_material _ := mem_unusedMaterials
  ascending_transforms := pairwise_unused ..
  unused_transform _ := mem_unusedTransforms
  ascending_universes := pairwise_unusedUniverses d

namespace Analysis

variable {settings : Settings} {text : String} {model : Model}

/-- A model comes from the blocks of its text. -/
theorem exists_blocks_of_model (h : (ofText settings text).model = some model) :
    ∃ blocks, ofText settings text = ofReading settings (.ofBlocks blocks) ∧
      model = .ofDeck (Reading.ofBlocks blocks).deck := by
  unfold ofText at h ⊢
  cases hblocks : Blocks.ofText text with
  | error fault =>
    rw [hblocks] at h
    cases h
  | ok blocks =>
    rw [hblocks] at h
    exact ⟨blocks, rfl, (Option.some.inj h).symm⟩

/-- The diagnostics of an analysis warn of the unused records as the cross references do, unless only
errors are kept. -/
theorem reportsUnder_unused_ofReading (settings : Settings) (blocks : Blocks) :
    reportsUnder Code.unusedRecords (ofReading settings (.ofBlocks blocks)).diagnostics =
      if settings.quiet then []
      else (CrossRefs.ofDeck (Reading.ofBlocks blocks).deck).unusedReports := by
  have hseverity : ∀ code ∈ Code.unusedRecords, code.severity = .warning := by decide
  simp only [ofReading, kept]
  split
  · apply reportsUnder_eq_nil
    intro r hr hcode
    have herror : r.code.severity.isError = true := (List.mem_filter.mp hr).2
    rw [hseverity r.code hcode] at herror
    exact Bool.noConfusion herror
  · calc reportsUnder Code.unusedRecords (bySeverity (phases settings (.ofBlocks blocks) _))
        = reportsUnder Code.unusedRecords (phases settings (.ofBlocks blocks) _) :=
          reportsUnder_bySeverity hseverity _
      _ = reportsUnder Code.unusedRecords
            ((CrossRefs.ofDeck (Reading.ofBlocks blocks).deck).reports _) :=
          reportsUnder_phases (by decide) settings blocks (.ofDeck (Reading.ofBlocks blocks).deck)
      _ = (CrossRefs.ofDeck (Reading.ofBlocks blocks).deck).unusedReports :=
          CrossRefs.reportsUnder_unused ..

/-- Whenever a deck is read from a text, its cross references are exact. They warn of each unused
record once, and unless only errors are kept so does the analysis. -/
theorem cross_references_exact (settings : Settings) (text : String) (model : Model)
    (hread : (ofText settings text).model = some model) :
    model.crossRefs.Exact model.deck ∧
    model.crossRefs.Warns (model.crossRefs.reports model.deck) ∧
    (settings.quiet = false → model.crossRefs.Warns (ofText settings text).diagnostics) := by
  obtain ⟨blocks, hanalysis, rfl⟩ := exists_blocks_of_model hread
  refine ⟨CrossRefs.exact_ofDeck (nodup_number_ofBlocks blocks), ?_, ?_⟩
  · rw [CrossRefs.Warns, CrossRefs.reportsUnder_unused]
    exact CrossRefs.facts_unusedReports _
  · intro hloud
    rw [CrossRefs.Warns, hanalysis, reportsUnder_unused_ofReading, hloud, if_neg Bool.false_ne_true]
    exact CrossRefs.facts_unusedReports _

def idleRecords : String :=
  "idle records\n1 1 -1 -1 2\n2 like 1 but u=4\n3 0 1\n\n1 so 1\n2 px 0\n9 px 5\n7 px 3\n\n" ++
  "m1 1001 1\nm2 1001 1\ntr8 0 0 1\nnps 1\n"

theorem cross_references_idleRecords : ∃ model, (ofText {} idleRecords).model = some model ∧
    model.crossRefs.surfaceUsers.find? 1 = some [1, 2, 3] ∧
    model.crossRefs.unusedSurfaces = [7, 9] ∧
    model.crossRefs.Exact model.deck ∧
    model.crossRefs.Warns (model.crossRefs.reports model.deck) ∧
    model.crossRefs.Warns (ofText {} idleRecords).diagnostics := by
  have htables : (ofText {} idleRecords).model.map (fun model =>
      (model.crossRefs.surfaceUsers.find? 1, model.crossRefs.unusedSurfaces)) =
        some (some [1, 2, 3], [7, 9]) := by decide +kernel
  obtain ⟨model, hmodel, htables⟩ := Option.map_eq_some_iff.mp htables
  obtain ⟨husers, hunused⟩ := Prod.mk.inj htables
  obtain ⟨hexact, hresolver, hdiagnostics⟩ := cross_references_exact {} idleRecords model hmodel
  exact ⟨model, hmodel, husers, hunused, hexact, hresolver, hdiagnostics rfl⟩

end Analysis

end TransportDeck
