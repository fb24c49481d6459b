import Mathlib.Logic.Basic
import TransportDeck.Proofs.Analysis.PhaseCodes

namespace TransportDeck

theorem LayoutFault.severity_report (fault : LayoutFault) : fault.report.severity = .fatal := by
  cases fault <;> rfl

theorem Diagnostic.isError_iff {r : Diagnostic} :
    r.isError = true ↔ r.severity = .fatal ∨ r.severity = .error := by
  unfold isError
  cases r.severity <;> simp [Severity.isError]

namespace Analysis

def found (settings : Settings) (blocks : Blocks) : List Diagnostic :=
  let reading := Reading.ofBlocks blocks
  reading.reports ++ (CrossRefs.ofDeck reading.deck).reports reading.deck ++
    Geometry.reports reading.deck settings.tolerance ++
    Hierarchy.reports reading.deck settings.maxNesting

structure Fatal (a : Analysis) : Prop where
  no_model : a.model = none
  one_report : ∃ r, a.diagnostics = [r] ∧ r.severity = .fatal
  exit_code : a.exitCode = 1
  process_code : a.processCode = 2

structure Read (settings : Settings) (text : String) (a : Analysis) : Prop where
  from_blocks : ∃ blocks depth counts, Blocks.ofText text = .ok blocks ∧
    a.model = some (.ofDeck (Reading.ofBlocks blocks).deck) ∧
    a.diagnostics = (found settings blocks).filter (fun r => r.severity = .error) ++
      (if settings.quiet then [] else
        (found settings blocks).filter (fun r => r.severity = .warning) ++ [depth, counts]) ∧
    depth.code = .maxDepth ∧ counts.code = .entityCounts
  no_fatal : ∀ r ∈ a.diagnostics, r.severity ≠ .fatal
  exit_code : a.exitCode = a.processCode
  process_code : a.processCode = if ∃ r ∈ a.diagnostics, r.severity = .error then 1 else 0

theorem phases_eq (settings : Settings) (blocks : Blocks) :
    phases settings (.ofBlocks blocks) (.ofDeck (Reading.ofBlocks blocks).deck) =
      found settings blocks ++ (Model.ofDeck (Reading.ofBlocks blocks).deck).summary := rfl

theorem severity_found {settings : Settings} {blocks : Blocks} :
    ∀ r ∈ found settings blocks, r.severity = .error ∨ r.severity = .warning := by
  have hcodes : ∀ code ∈ Code.ofReading ++ Code.ofReferences ++ Code.ofGeometry ++ Code.ofHierarchy,
      code.severity = .error ∨ code.severity = .warning := by decide
  intro r hr
  apply hcodes
  simp only [found, List.mem_append] at hr ⊢
  rcases hr with ((hr | hr) | hr) | hr
  · exact .inl (.inl (.inl (Reading.code_mem_reports blocks r hr)))
  · exact .inl (.inl (.inr (CrossRefs.code_mem_reports hr)))
  · exact .inl (.inr (Geometry.code_mem_reports _ _ r hr))
  · exact .inr (Hierarchy.code_mem_reports _ _ r hr)

theorem severity_summary (model : Model) : ∀ r ∈ model.summary, r.severity = .info := by
  have hcodes : ∀ code ∈ Code.ofSummary, code.severity = .info := by decide
  exact fun r hr => hcodes r.code (model.code_mem_summary r hr)

/-- Sorting by severity puts the errors before the warnings and the summary last. -/
theorem bySeverity_phases (settings : Settings) (blocks : Blocks) (model : Model) :
    bySeverity (found settings blocks ++ model.summary) =
      (found settings blocks).filter (fun r => r.severity = .error) ++
        ((found settings blocks).filter (fun r => r.severity = .warning) ++ model.summary) := by
  have hfound (severity : Severity) (herror : severity ≠ .error) (hwarning : severity ≠ .warning) :
      (found settings blocks).filter (fun r => r.severity = severity) = [] := by
    refine List.filter_eq_nil_iff.mpr fun r hr hseverity => ?_
    rw [decide_eq_true_eq] at hseverity
    rcases severity_found r hr with h | h
    · exact herror (hseverity.symm.trans h)
    · exact hwarning (hseverity.symm.trans h)
  have hsummary (severity : Severity) (hinfo : severity ≠ .info) :
      model.summary.filter (fun r => r.severity = severity) = [] := by
    refine List.filter_eq_nil_iff.mpr fun r hr hseverity => ?_
    rw [decide_eq_true_eq, severity_summary model r hr] at hseverity
    exact hinfo hseverity.symm
  have hinfo : model.summary.filter (fun r => r.severity = .info) = model.summary :=
    List.filter_eq_self.mpr fun r hr => decide_eq_true (severity_summary model r hr)
  simp only [bySeverity, Severity.all, List.flatMap_cons, List.flatMap_nil, List.filter_append,
    hfound .fatal (by decide) (by decide), hfound .info (by decide) (by decide),
    hsummary .fatal (by decide), hsummary .error (by decide), hsummary .warning (by decide), hinfo,
    List.nil_append, List.append_nil]

theorem diagnostics_ofReading (settings : Settings) (blocks : Blocks) :
    (ofReading settings (.ofBlocks blocks)).diagnostics =
      (found settings blocks).filter (fun r => r.severity = .error) ++
      (if settings.quiet then [] else
        (found settings blocks).filter (fun r => r.severity = .warning) ++
          (Model.ofDeck (Reading.ofBlocks blocks).deck).summary) := by
  have hall := bySeverity_phases settings blocks (.ofDeck (Reading.ofBlocks blocks).deck)
  rw [← phases_eq] at hall
  rw [ofReading]
  dsimp only
  rw [hall, kept]
  split
  · -- of what is in order by severity, the errors are a first part
    have herrors (r : Diagnostic) :
        (r.isError && decide (r.severity = .error)) = decide (r.severity = .error) := by
      unfold Diagnostic.isError
      cases r.severity <;> rfl
    have hwarnings (r : Diagnostic) : (r.isError && decide (r.severity = .warning)) = false := by
      unfold Diagnostic.isError
      cases r.severity <;> rfl
    have hsummary (model : Model) : model.summary.filter Diagnostic.isError = [] := by
      refine List.filter_eq_nil_iff.mpr fun r hr => ?_
      rw [Diagnostic.isError, severity_summary model r hr]
      exact Bool.false_ne_true
    simp only [List.filter_append, List.filter_filter, herrors, hwarnings, hsummary,
      List.filter_false, List.append_nil]
  · rfl

theorem kept_subset {settings : Settings} {reports : List Diagnostic} :
    kept settings reports ⊆ reports := by
  unfold kept
  split
  · exact List.filter_subset_self _
  · exact List.Subset.refl _

theorem severity_diagnostics {settings : Settings} {blocks : Blocks} :
    ∀ r ∈ (ofReading settings (.ofBlocks blocks)).diagnostics, r.severity ≠ .fatal := by
  intro r hr
  have hphases := mem_bySeverity.mp (kept_subset hr)
  rw [phases_eq, List.mem_append] at hphases
  rcases hphases with h | h
  · rcases severity_found r h with hr | hr <;> simp [hr]
  · simp [severity_summary _ r h]

theorem isFatal_eq_false {a : Analysis} (h : ∀ r ∈ a.diagnostics, r.severity ≠ .fatal) :
    a.isFatal = false := by
  rw [isFatal, List.any_eq_false]
  exact fun r hr hfatal => h r hr (of_decide_eq_true hfatal)

theorem hasErrors_iff {a : Analysis} (h : ∀ r ∈ a.diagnostics, r.severity ≠ .fatal) :
    a.hasErrors = true ↔ ∃ r ∈ a.diagnostics, r.severity = .error := by
  rw [hasErrors, List.any_eq_true]
  constructor
  · rintro ⟨r, hr, herror⟩
    exact ⟨r, hr, (Diagnostic.isError_iff.mp herror).resolve_left (h r hr)⟩
  · rintro ⟨r, hr, herror⟩
    exact ⟨r, hr, Diagnostic.isError_iff.mpr (.inr herror)⟩

theorem read_ofReading {settings : Settings} {text : String} {blocks : Blocks}
    (h : Blocks.ofText text = .ok blocks) :
    Read settings text (ofReading settings (.ofBlocks blocks)) where
  from_blocks := ⟨blocks, _, _, h, rfl, diagnostics_ofReading settings blocks, rfl, rfl⟩
  no_fatal := severity_diagnostics
  exit_code := by
    rw [exitCode, processCode, isFatal_eq_false severity_diagnostics, if_neg Bool.false_ne_true]
  process_code := by
    rw [processCode, isFatal_eq_false severity_diagnostics, if_neg Bool.false_ne_true]
    simp only [hasErrors_iff severity_diagnostics]

theorem fatal_ofFault (fault : LayoutFault) : Fatal (ofFault (.layout fault)) where
  no_model := rfl
  one_report := ⟨fault.report, rfl, fault.severity_report⟩
  exit_code := by cases fault <;> rfl
  process_code := by cases fault <;> rfl

/-- The analysis of a text has exactly one of the two shapes, whatever the settings. -/
theorem fatal_xor_read (settings : Settings) (text : String) :
    Xor (Fatal (ofText settings text)) (Read settings text (ofText settings text)) := by
  unfold ofText
  cases hblocks : Blocks.ofText text with
  | error fault =>
    refine .inl ⟨fatal_ofFault fault, fun hread => ?_⟩
    obtain ⟨blocks, _, _, hok, _⟩ := hread.from_blocks
    rw [hblocks] at hok
    cases hok
  | ok blocks =>
    refine .inr ⟨read_ofReading hblocks, fun hfatal => ?_⟩
    cases hfatal.no_model

end Analysis

end TransportDeck
