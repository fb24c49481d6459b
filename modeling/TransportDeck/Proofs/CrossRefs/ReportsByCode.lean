import TransportDeck.CrossRefs

namespace TransportDeck

def Code.undefinedTargets : List Code :=
  [undefinedSurface, undefinedMaterial, undefinedTransform, undefinedUniverse,
    undefinedTallyEntity, undefinedCell]

def Code.unusedRecords : List Code :=
  [unusedSurface, unusedMaterial, unusedTransform, unusedUniverse]

def Code.ofReferences : List Code :=
  undefinedTargets ++ [parseTokenCount] ++ unusedRecords

def reportsUnder (codes : List Code) (reports : List Diagnostic) : List Diagnostic :=
  reports.filter fun r => r.code ∈ codes

theorem reportsUnder_append (codes : List Code) (before after : List Diagnostic) :
    reportsUnder codes (before ++ after) = reportsUnder codes before ++ reportsUnder codes after :=
  List.filter_append ..

theorem reportsUnder_flatMap {α : Type} (codes : List Code) (records : List α)
    (reports : α → List Diagnostic) :
    reportsUnder codes (records.flatMap reports) =
      records.flatMap fun a => reportsUnder codes (reports a) :=
  List.filter_flatMap ..

theorem reportsUnder_eq_self {codes : List Code} {reports : List Diagnostic}
    (h : ∀ r ∈ reports, r.code ∈ codes) : reportsUnder codes reports = reports :=
  List.filter_eq_self.mpr fun r hr => decide_eq_true (h r hr)

theorem reportsUnder_eq_nil {codes : List Code} {reports : List Diagnostic}
    (h : ∀ r ∈ reports, r.code ∉ codes) : reportsUnder codes reports = [] :=
  List.filter_eq_nil_iff.mpr fun r hr => by simpa using h r hr

section Findings

variable {α : Type} {codes : List Code} {records : List α} {finding : α → Finding}
  {span : α → Option Span}

theorem reportsUnder_map_eq_self (h : ∀ a ∈ records, (finding a).code ∈ codes) :
    reportsUnder codes (records.map fun a => (finding a).report (span a)) =
      records.map fun a => (finding a).report (span a) := by
  apply reportsUnder_eq_self
  intro r hr
  obtain ⟨a, ha, rfl⟩ := List.mem_map.mp hr
  exact h a ha

theorem reportsUnder_map_eq_nil (h : ∀ a ∈ records, (finding a).code ∉ codes) :
    reportsUnder codes (records.map fun a => (finding a).report (span a)) = [] := by
  apply reportsUnder_eq_nil
  intro r hr
  obtain ⟨a, ha, rfl⟩ := List.mem_map.mp hr
  exact h a ha

end Findings

theorem Reference.code_mem (r : Reference) : r.code ∈ Code.undefinedTargets := by
  cases r <;> simp [code, Code.undefinedTargets]

namespace CrossRefs

variable {refs : CrossRefs} {d : Deck} {r : Diagnostic}

theorem code_of_mem_dangling {span : Span} {names : List Reference}
    (hr : r ∈ refs.dangling span names) : r.code ∈ Code.undefinedTargets := by
  obtain ⟨name, _, rfl⟩ := List.mem_map.mp hr
  exact name.code_mem

theorem code_of_mem_checkImportance {card : DataCard} (hr : r ∈ checkImportance d card) :
    r.code = .parseTokenCount := by
  unfold checkImportance at hr
  split at hr
  · split at hr
    · cases hr
    · rw [List.mem_singleton.mp hr]
      rfl
  · cases hr

theorem code_of_mem_unusedReports (hr : r ∈ refs.unusedReports) : r.code ∈ Code.unusedRecords := by
  simp only [unusedReports, List.mem_append, List.mem_map] at hr
  rcases hr with ((⟨_, _, rfl⟩ | ⟨_, _, rfl⟩) | ⟨_, _, rfl⟩) | ⟨_, _, rfl⟩
  all_goals simp [Finding.report, Finding.code, Code.unusedRecords]

theorem code_mem_reports (hr : r ∈ refs.reports d) : r.code ∈ Code.ofReferences := by
  simp only [reports, List.mem_append, List.mem_flatMap] at hr
  simp only [Code.ofReferences, List.mem_append, List.mem_singleton]
  rcases hr with ((⟨_, _, hr⟩ | ⟨_, _, hr⟩) | ⟨_, _, hr | hr⟩) | hr
  · exact .inl (.inl (code_of_mem_dangling hr))
  · exact .inl (.inl (code_of_mem_dangling hr))
  · exact .inl (.inl (code_of_mem_dangling hr))
  · exact .inl (.inr (code_of_mem_checkImportance hr))
  · exact .inr (code_of_mem_unusedReports hr)

theorem reportsUnder_undefined (refs : CrossRefs) (d : Deck) :
    reportsUnder Code.undefinedTargets (refs.reports d) =
      d.cells.flatMap (fun c => refs.dangling c.span c.references) ++
      d.surfaces.flatMap (fun s => refs.dangling s.span s.references) ++
      d.data.flatMap (fun card => refs.dangling card.span card.references) := by
  have hkeep (span : Span) (names : List Reference) :
      reportsUnder Code.undefinedTargets (refs.dangling span names) = refs.dangling span names :=
    reportsUnder_eq_self fun r hr => code_of_mem_dangling hr
  have himportance (card : DataCard) :
      reportsUnder Code.undefinedTargets (checkImportance d card) = [] := by
    apply reportsUnder_eq_nil
    intro r hr
    rw [code_of_mem_checkImportance hr]
    decide
  have hunused : reportsUnder Code.undefinedTargets refs.unusedReports = [] := by
    have hdisjoint : ∀ code ∈ Code.unusedRecords, code ∉ Code.undefinedTargets := by decide
    exact reportsUnder_eq_nil fun r hr => hdisjoint r.code (code_of_mem_unusedReports hr)
  simp only [reports, reportsUnder_append, reportsUnder_flatMap, hkeep, himportance, hunused,
    List.append_nil]

/-- Under codes that tell neither of a missing target nor of a wrong count, only unused records are
reported. -/
theorem reportsUnder_other {codes : List Code} (hreferences : ∀ code ∈ Code.undefinedTargets, code ∉ codes)
    (himportance : .parseTokenCount ∉ codes) :
    reportsUnder codes (refs.reports d) = reportsUnder codes refs.unusedReports := by
  have hdangling (span : Span) (names : List Reference) :
      reportsUnder codes (refs.dangling span names) = [] :=
    reportsUnder_eq_nil fun r hr => hreferences r.code (code_of_mem_dangling hr)
  have hcards (card : DataCard) : reportsUnder codes (checkImportance d card) = [] :=
    reportsUnder_eq_nil fun r hr => (code_of_mem_checkImportance hr) ▸ himportance
  have hnone {α : Type} (records : List α) : records.flatMap (fun _ => ([] : List Diagnostic)) = [] :=
    List.flatMap_eq_nil_iff.mpr fun _ _ => rfl
  simp only [reports, reportsUnder_append, reportsUnder_flatMap, hdangling, hcards, hnone,
    List.nil_append]

theorem reportsUnder_unused (refs : CrossRefs) (d : Deck) :
    reportsUnder Code.unusedRecords (refs.reports d) = refs.unusedReports := by
  rw [reportsUnder_other (by decide) (by decide)]
  exact reportsUnder_eq_self fun r hr => code_of_mem_unusedReports hr

end CrossRefs

end TransportDeck
