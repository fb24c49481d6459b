import TransportDeck.Proofs.Analysis.Errors
import TransportDeck.Proofs.CrossRefs.ReportsByCode
import TransportDeck.Proofs.Reading.Reports

/-!
The codes of each phase. Reading, geometry, hierarchy and summary keep to codes of their own, so what
the cross references report can be found in the diagnostics by its code.
-/

namespace TransportDeck

namespace Code

def ofLike : List Code :=
  ofFaults ++ [undefinedCell]

def ofReading : List Code :=
  ofCards ++ [undefinedCell]

def ofGeometry : List Code :=
  [latticeKind, latticeSurfaceCount, fillArrayCardinality, badVolume, surfaceCoeffCount,
    transformInvalid, transformNotOrthonormal, transformReflection]

def ofRotations : List Code :=
  [transformInvalid, transformNotOrthonormal, transformReflection]

def ofCellContents : List Code :=
  [latticeKind, latticeSurfaceCount, fillArrayCardinality, badVolume]

def ofCellChecks : List Code :=
  [latticeKind, latticeSurfaceCount, fillArrayCardinality, badVolume] ++ ofRotations

def ofHierarchy : List Code :=
  [circularUniverse, universeUnreachable, deepNesting]

def ofSummary : List Code :=
  [maxDepth, entityCounts]

def besidesReferences : List Code :=
  ofReading ++ ofGeometry ++ ofHierarchy ++ ofSummary

end Code

theorem Code.mem_ofReading_of_mem_ofCards {code : Code} (h : code ∈ ofCards) : code ∈ ofReading :=
  List.mem_append_left _ h

theorem Cell.code_mem_expand {cells : List Cell} {c : Cell} :
    ∀ r ∈ (c.expand cells).2, r.code ∈ Code.ofLike := by
  intro r hr
  unfold expand at hr
  split at hr
  · cases hr
  · split at hr
    · obtain ⟨fault, _, rfl⟩ := List.mem_map.mp hr
      exact List.mem_append_left _ fault.code_mem_ofFaults
    · simp [List.mem_singleton.mp hr, Finding.report, Finding.code, Code.ofLike]
    · simp [List.mem_singleton.mp hr, Finding.report, Finding.code, Code.ofLike]

theorem code_mem_expandLike {cells : List Cell} :
    ∀ r ∈ (expandLike cells).2, r.code ∈ Code.ofLike := by
  intro r hr
  rw [expandLike, List.mem_flatMap] at hr
  obtain ⟨_, hexpand, hr⟩ := hr
  obtain ⟨c, _, rfl⟩ := List.mem_map.mp hexpand
  exact Cell.code_mem_expand r hr

theorem Reading.code_mem_reports (blocks : Blocks) :
    ∀ r ∈ (Reading.ofBlocks blocks).reports, r.code ∈ Code.ofReading := by
  intro r hr
  simp only [ofBlocks, List.mem_append] at hr
  rcases hr with ((hr | hr) | hr) | hr
  · exact Code.mem_ofReading_of_mem_ofCards (Cell.code_mem_keepFirst _ r hr)
  · have hsub : Code.ofLike ⊆ Code.ofReading := by decide
    exact hsub (code_mem_expandLike r hr)
  · exact Code.mem_ofReading_of_mem_ofCards (Surface.code_mem_keepFirst _ r hr)
  · exact Code.mem_ofReading_of_mem_ofCards (DataCard.code_mem_keepFirst _ r hr)

namespace Geometry

variable {d : Deck} {c : Cell} {tolerance : Float}

theorem code_mem_checkLattice : ∀ f ∈ checkLattice d c, f.code ∈ Code.ofCellContents := by
  unfold checkLattice
  split
  · simp
  · split
    · simp [Finding.code, Code.ofCellContents]
    · dsimp only
      split
      · simp
      · simp [Finding.code, Code.ofCellContents]

theorem code_mem_checkFill : ∀ f ∈ checkFill c, f.code ∈ Code.ofCellContents := by
  unfold checkFill
  split
  · unfold checkFillArray
    dsimp only
    split
    · split
      · simp [Finding.code, Code.ofCellContents]
      · split
        · simp
        · simp [Finding.code, Code.ofCellContents]
    · simp [Finding.code, Code.ofCellContents]
  · simp

theorem code_mem_checkVolume : ∀ f ∈ checkVolume c, f.code ∈ Code.ofCellContents := by
  unfold checkVolume
  split
  · split
    · simp
    · simp [Finding.code, Code.ofCellContents]
  · simp

theorem code_mem_checkRotation {place : RotationPlace} {t : Transform} :
    ∀ f ∈ checkRotation place t tolerance, f.code ∈ Code.ofRotations := by
  unfold checkRotation checkMatrix
  split
  · dsimp only
    split
    · simp [Finding.code, Code.ofRotations]
    · intro f hf
      rcases List.mem_append.mp hf with hf | hf
      · split at hf
        · cases hf
        · simp [List.mem_singleton.mp hf, Finding.code, Code.ofRotations]
      · split at hf
        · simp [List.mem_singleton.mp hf, Finding.code, Code.ofRotations]
        · cases hf
  · simp

theorem code_mem_checkInlined : ∀ f ∈ checkInlined c tolerance, f.code ∈ Code.ofRotations := by
  intro f hf
  obtain ⟨⟨place, spec⟩, _, hf⟩ := List.mem_flatMap.mp hf
  dsimp only at hf
  split at hf
  · exact code_mem_checkRotation f hf
  · cases hf

theorem code_mem_checkCard {card : DataCard} :
    ∀ f ∈ checkCard tolerance card, f.code ∈ Code.ofRotations := by
  unfold checkCard
  split
  · exact code_mem_checkRotation
  · simp

theorem code_mem_checkCell : ∀ f ∈ checkCell d tolerance c, f.code ∈ Code.ofCellChecks := by
  intro f hf
  simp only [checkCell, List.mem_append] at hf
  rcases hf with ((hf | hf) | hf) | hf
  · exact List.mem_append_left _ (code_mem_checkLattice f hf)
  · exact List.mem_append_left _ (code_mem_checkFill f hf)
  · exact List.mem_append_left _ (code_mem_checkVolume f hf)
  · exact List.mem_append_right _ (code_mem_checkInlined f hf)

theorem code_of_mem_checkSurface {s : Surface} : ∀ f ∈ checkSurface s, f.code = .surfaceCoeffCount := by
  unfold checkSurface
  split
  · simp
  · split
    · simp
    · simp [Finding.code]

theorem code_mem_reports (d : Deck) (tolerance : Float) :
    ∀ r ∈ reports d tolerance, r.code ∈ Code.ofGeometry := by
  intro r hr
  simp only [reports, List.mem_append, List.mem_flatMap, List.mem_map] at hr
  have hcells : Code.ofCellChecks ⊆ Code.ofGeometry := by decide
  have hrotations : Code.ofRotations ⊆ Code.ofGeometry := by decide
  rcases hr with (⟨_, _, f, hf, rfl⟩ | ⟨_, _, f, hf, rfl⟩) | ⟨_, _, f, hf, rfl⟩
  · exact hcells (code_mem_checkCell f hf)
  · have hsurface : Code.surfaceCoeffCount ∈ Code.ofGeometry := by decide
    change f.code ∈ Code.ofGeometry
    rw [code_of_mem_checkSurface f hf]
    exact hsurface
  · exact hrotations (code_mem_checkCard f hf)

end Geometry

theorem Hierarchy.code_mem_reports (d : Deck) (limit : Nat) :
    ∀ r ∈ reports d limit, r.code ∈ Code.ofHierarchy := by
  intro r hr
  simp only [reports, List.mem_append, List.mem_map, List.mem_filterMap] at hr
  rcases hr with (⟨_, _, rfl⟩ | ⟨_, _, hr⟩) | hr
  · simp [cycleReport, Finding.report, Finding.code, Code.ofHierarchy]
  · obtain ⟨c, _, rfl⟩ := Option.map_eq_some_iff.mp hr
    simp [Finding.report, Finding.code, Code.ofHierarchy]
  · unfold nestingReports at hr
    split at hr
    · simp [List.mem_singleton.mp hr, Finding.report, Finding.code, Code.ofHierarchy]
    · cases hr

theorem Model.code_mem_summary (model : Model) : ∀ r ∈ model.summary, r.code ∈ Code.ofSummary := by
  simp [summary, Finding.report, Finding.code, Code.ofSummary]

namespace Analysis

variable {codes : List Code}

/-- The order by severity leaves reports of one severity as they came. -/
theorem reportsUnder_bySeverity {severity : Severity} (h : ∀ code ∈ codes, code.severity = severity)
    (reports : List Diagnostic) :
    reportsUnder codes (bySeverity reports) = reportsUnder codes reports := by
  have hpart (s : Severity) : reportsUnder codes (reports.filter fun r => r.severity = s) =
      if s = severity then reportsUnder codes reports else [] := by
    rw [reportsUnder, List.filter_filter]
    split
    · next hs =>
      subst hs
      apply List.filter_congr
      intro r _
      by_cases hcode : r.code ∈ codes
      · simp [hcode, Diagnostic.severity, h r.code hcode]
      · simp [hcode]
    · next hs =>
      apply List.filter_eq_nil_iff.mpr
      intro r _ hr
      simp only [Bool.and_eq_true, decide_eq_true_eq] at hr
      exact hs (hr.2 ▸ h r.code hr.1)
  rw [bySeverity, reportsUnder_flatMap]
  simp only [hpart]
  cases severity <;> simp [Severity.all]

/-- Under codes that no other phase uses, the phases report what the cross references do. -/
theorem reportsUnder_phases (hbesides : ∀ code ∈ Code.besidesReferences, code ∉ codes)
    (settings : Settings) (blocks : Blocks) (model : Model) :
    reportsUnder codes (phases settings (.ofBlocks blocks) model) =
      reportsUnder codes (model.crossRefs.reports (Reading.ofBlocks blocks).deck) := by
  -- what a phase reports under its own codes is not asked for
  have hnone {own : List Code} {reports : List Diagnostic}
      (hsub : own ⊆ Code.besidesReferences) (h : ∀ r ∈ reports, r.code ∈ own) :
      reportsUnder codes reports = [] :=
    reportsUnder_eq_nil fun r hr => hbesides r.code (hsub (h r hr))
  have hreading := hnone (by decide) (Reading.code_mem_reports blocks)
  have hgeometry := hnone (by decide)
    (Geometry.code_mem_reports (Reading.ofBlocks blocks).deck settings.tolerance)
  have hhierarchy := hnone (by decide)
    (Hierarchy.code_mem_reports (Reading.ofBlocks blocks).deck settings.maxNesting)
  have hsummary := hnone (by decide) model.code_mem_summary
  simp only [phases, reportsUnder_append, hreading, hgeometry, hhierarchy, hsummary,
    List.nil_append, List.append_nil]

end Analysis

end TransportDeck
