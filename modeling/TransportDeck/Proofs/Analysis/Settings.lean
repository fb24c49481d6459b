import TransportDeck.Proofs.Analysis.Shapes

namespace TransportDeck

def Code.ofSettings : List Code :=
  deepNesting :: ofRotations

def SameBesides (codes : List Code) (reports reports' : List Diagnostic) : Prop :=
  reports.filter (fun r => r.code ∉ codes) = reports'.filter (fun r => r.code ∉ codes)

namespace SameBesides

variable {codes : List Code} {reports reports' later later' : List Diagnostic}

theorem refl (codes : List Code) (reports : List Diagnostic) : SameBesides codes reports reports := rfl

theorem append (h : SameBesides codes reports reports') (hlater : SameBesides codes later later') :
    SameBesides codes (reports ++ later) (reports' ++ later') := by
  unfold SameBesides at *
  rw [List.filter_append, List.filter_append, h, hlater]

theorem filter (p : Diagnostic → Bool) (h : SameBesides codes reports reports') :
    SameBesides codes (reports.filter p) (reports'.filter p) := by
  unfold SameBesides at *
  rw [List.filter_comm, h, List.filter_comm]

theorem flatMap {α : Type} {records : List α} {f f' : α → List Diagnostic}
    (h : ∀ a ∈ records, SameBesides codes (f a) (f' a)) :
    SameBesides codes (records.flatMap f) (records.flatMap f') := by
  unfold SameBesides at *
  rw [List.filter_flatMap, List.filter_flatMap]
  exact List.flatMap_congr h

/-- Under the codes that are left aside the reports may be any. -/
theorem of_codes (h : ∀ r ∈ reports, r.code ∈ codes) (h' : ∀ r ∈ reports', r.code ∈ codes) :
    SameBesides codes reports reports' := by
  have hnone {rs : List Diagnostic} (hrs : ∀ r ∈ rs, r.code ∈ codes) :
      rs.filter (fun r => r.code ∉ codes) = [] :=
    List.filter_eq_nil_iff.mpr fun r hr => by simpa using hrs r hr
  exact (hnone h).trans (hnone h').symm

/-- Where no code left aside tells of an error, the errors are the same. -/
theorem errors_eq (hcodes : ∀ code ∈ codes, code.severity ≠ .error)
    (h : SameBesides codes reports reports') :
    reports.filter (fun r => r.severity = .error) = reports'.filter (fun r => r.severity = .error) := by
  have hother (rs : List Diagnostic) : rs.filter (fun r => r.severity = .error) =
      (rs.filter fun r => r.code ∉ codes).filter fun r => r.severity = .error := by
    rw [List.filter_filter]
    apply List.filter_congr
    intro r _
    by_cases hcode : r.code ∈ codes
    · simp [hcode, Diagnostic.severity, hcodes r.code hcode]
    · simp [hcode]
  rw [hother reports, hother reports', h]

end SameBesides

namespace Geometry

variable {codes : List Code}

/-- The tolerance shows in the checks on rotations only. -/
theorem sameBesides_reports (hcodes : Code.ofRotations ⊆ codes) (d : Deck)
    (tolerance tolerance' : Float) :
    SameBesides codes (reports d tolerance) (reports d tolerance') := by
  have hrotations {own own' : List Finding} (span : Span)
      (h : ∀ f ∈ own, f.code ∈ Code.ofRotations) (h' : ∀ f ∈ own', f.code ∈ Code.ofRotations) :
      SameBesides codes (own.map (·.report (some span))) (own'.map (·.report (some span))) := by
    have hmem {fs : List Finding} (hfs : ∀ f ∈ fs, f.code ∈ Code.ofRotations) :
        ∀ r ∈ fs.map (·.report (some span)), r.code ∈ codes := by
      intro r hr
      obtain ⟨f, hf, rfl⟩ := List.mem_map.mp hr
      exact hcodes (hfs f hf)
    exact .of_codes (hmem h) (hmem h')
  refine .append (.append (.flatMap fun c _ => ?_) (.refl ..)) (.flatMap fun card _ => ?_)
  · simp only [checkCell, List.map_append]
    exact .append (.refl ..) (hrotations c.span code_mem_checkInlined code_mem_checkInlined)
  · exact hrotations card.span code_mem_checkCard code_mem_checkCard

end Geometry

namespace Hierarchy

variable {codes : List Code}

theorem code_of_mem_nestingReports {h : Hierarchy} {limit : Nat} :
    ∀ r ∈ h.nestingReports limit, r.code = .deepNesting := by
  unfold nestingReports
  split
  · simp [Finding.report, Finding.code]
  · simp

/-- The limit on nesting shows in the report of deep nesting only. -/
theorem sameBesides_reports (hcodes : .deepNesting ∈ codes) (d : Deck) (limit limit' : Nat) :
    SameBesides codes (reports d limit) (reports d limit') := by
  refine .append (.refl ..) (.of_codes ?_ ?_)
  · exact fun r hr => code_of_mem_nestingReports r hr ▸ hcodes
  · exact fun r hr => code_of_mem_nestingReports r hr ▸ hcodes

end Hierarchy

namespace Analysis

variable {codes : List Code} {settings settings' : Settings}

/-- The phases report alike under settings whose traces are left aside. -/
theorem sameBesides_found (blocks : Blocks) (hnesting : .deepNesting ∈ codes)
    (htolerance : settings.tolerance = settings'.tolerance ∨ Code.ofRotations ⊆ codes) :
    SameBesides codes (found settings blocks) (found settings' blocks) := by
  refine .append (.append (.refl ..) ?_) (Hierarchy.sameBesides_reports hnesting _ _ _)
  rcases htolerance with hsame | hcodes
  · rw [hsame]
    exact .refl ..
  · exact Geometry.sameBesides_reports hcodes _ _ _

theorem model_ofText (settings settings' : Settings) (text : String) :
    (ofText settings text).model = (ofText settings' text).model := by
  unfold ofText
  cases Blocks.ofText text <;> rfl

theorem diagnostics_ofText_loud (hloud : settings.quiet = false) (hloud' : settings'.quiet = false)
    (text : String) :
    SameBesides Code.ofSettings (ofText settings text).diagnostics
      (ofText settings' text).diagnostics := by
  unfold ofText
  cases Blocks.ofText text with
  | error fault => exact .refl ..
  | ok blocks =>
    have hfound : SameBesides Code.ofSettings (found settings blocks) (found settings' blocks) :=
      sameBesides_found blocks (by decide) (.inr (by decide))
    dsimp only
    rw [diagnostics_ofReading, diagnostics_ofReading, hloud, hloud']
    exact .append (hfound.filter _) (.append (hfound.filter _) (.refl ..))

theorem diagnostics_ofText_quiet (nesting : Nat) (tolerance : Float) (text : String) :
    (ofText ⟨nesting, tolerance, true⟩ text).diagnostics =
      (ofText ⟨nesting, tolerance, false⟩ text).diagnostics.filter Diagnostic.isError := by
  unfold ofText
  cases Blocks.ofText text with
  | error fault => cases fault <;> rfl
  | ok blocks => rfl

/-- There are errors exactly if a phase finds one, whether or not only errors are kept. -/
theorem hasErrors_ofReading_eq (settings : Settings) (blocks : Blocks) :
    (ofReading settings (.ofBlocks blocks)).hasErrors =
      ((found settings blocks).filter fun r => r.severity = .error).any Diagnostic.isError := by
  obtain ⟨nesting, tolerance, quiet⟩ := settings
  have hquiet := diagnostics_ofReading ⟨nesting, tolerance, true⟩ blocks
  rw [if_pos rfl, List.append_nil] at hquiet
  calc (ofReading ⟨nesting, tolerance, quiet⟩ (.ofBlocks blocks)).hasErrors
      = (ofReading ⟨nesting, tolerance, true⟩ (.ofBlocks blocks)).hasErrors := by
        rw [hasErrors, hasErrors, ofReading, ofReading, any_isError_kept, any_isError_kept]
        rfl
    _ = ((found ⟨nesting, tolerance, true⟩ blocks).filter
          fun r => r.severity = .error).any Diagnostic.isError := by
        rw [hasErrors, hquiet]

theorem hasErrors_ofText_congr (htolerance : settings.tolerance = settings'.tolerance)
    (text : String) : (ofText settings text).hasErrors = (ofText settings' text).hasErrors := by
  unfold ofText
  cases Blocks.ofText text with
  | error fault => rfl
  | ok blocks =>
    have hfound : SameBesides [.deepNesting] (found settings blocks) (found settings' blocks) :=
      sameBesides_found blocks List.mem_cons_self (.inl htolerance)
    dsimp only
    rw [hasErrors_ofReading_eq, hasErrors_ofReading_eq, hfound.errors_eq (by decide)]

theorem isFatal_ofText_congr (settings settings' : Settings) (text : String) :
    (ofText settings text).isFatal = (ofText settings' text).isFatal := by
  unfold ofText
  cases Blocks.ofText text with
  | error fault => rfl
  | ok blocks =>
    dsimp only
    rw [isFatal_eq_false severity_diagnostics, isFatal_eq_false severity_diagnostics]

/-- The settings never reach the model. Unless only errors are kept they show in the diagnostics
under four codes only; keeping errors only leaves the errors of these diagnostics; and of all settings
the tolerance alone can change an exit code. -/
theorem settings_leave_model (text : String) (nesting nesting' : Nat) (tolerance tolerance' : Float)
    (quiet quiet' : Bool) :
    (ofText ⟨nesting, tolerance, quiet⟩ text).model =
      (ofText ⟨nesting', tolerance', quiet'⟩ text).model ∧
    SameBesides Code.ofSettings (ofText ⟨nesting, tolerance, false⟩ text).diagnostics
      (ofText ⟨nesting', tolerance', false⟩ text).diagnostics ∧
    (ofText ⟨nesting, tolerance, true⟩ text).diagnostics =
      (ofText ⟨nesting, tolerance, false⟩ text).diagnostics.filter
        (fun r => r.severity = .fatal ∨ r.severity = .error) ∧
    (ofText ⟨nesting, tolerance, quiet⟩ text).exitCode =
      (ofText ⟨nesting', tolerance, quiet'⟩ text).exitCode ∧
    (ofText ⟨nesting, tolerance, quiet⟩ text).processCode =
      (ofText ⟨nesting', tolerance, quiet'⟩ text).processCode := by
  have herrors : (ofText ⟨nesting, tolerance, quiet⟩ text).hasErrors =
      (ofText ⟨nesting', tolerance, quiet'⟩ text).hasErrors := by
    apply hasErrors_ofText_congr
    rfl
  have hfatal := isFatal_ofText_congr ⟨nesting, tolerance, quiet⟩ ⟨nesting', tolerance, quiet'⟩ text
  refine ⟨model_ofText .., diagnostics_ofText_loud rfl rfl text, ?_, ?_, ?_⟩
  · rw [diagnostics_ofText_quiet]
    apply List.filter_congr
    intro r _
    rw [Bool.eq_iff_iff, Diagnostic.isError_iff, decide_eq_true_eq]
  · rw [exitCode, exitCode, herrors]
  · rw [processCode, processCode, hfatal, herrors]

end Analysis

end TransportDeck
