import TransportDeck.Analysis

namespace TransportDeck

/-- A list of errors none of which is an error is empty. -/
theorem eq_nil_of_clean {α : Type} {p : α → Bool} {found : List α}
    (herror : ∀ a ∈ found, p a = true) (hclean : ∀ a ∈ found, p a = false) :
    found = [] := by
  refine List.eq_nil_iff_forall_not_mem.mpr fun a ha => ?_
  have h := herror a ha
  rw [hclean a ha] at h
  exact Bool.noConfusion h

namespace Analysis

theorem mem_bySeverity {r : Diagnostic} {ds : List Diagnostic} : r ∈ bySeverity ds ↔ r ∈ ds := by
  simp only [bySeverity, List.mem_flatMap, List.mem_filter, decide_eq_true_eq]
  constructor
  · rintro ⟨_, _, hr, _⟩
    exact hr
  · intro hr
    refine ⟨r.severity, ?_, hr, rfl⟩
    cases r.severity <;> decide

/-- The settings keep every error. -/
theorem any_isError_kept (settings : Settings) (ds : List Diagnostic) :
    (kept settings ds).any Diagnostic.isError = ds.any Diagnostic.isError := by
  unfold kept
  split
  · simp [List.any_filter]
  · rfl

theorem hasErrors_ofReading {settings : Settings} {reading : Reading} :
    (ofReading settings reading).hasErrors = false ↔
      ∀ r ∈ phases settings reading (.ofDeck reading.deck), r.isError = false := by
  rw [hasErrors, ofReading, any_isError_kept, List.any_eq_false]
  simp only [mem_bySeverity, Bool.not_eq_true]

/-- A text that does not divide into its blocks is an error. -/
theorem hasErrors_ofFault (fault : LayoutFault) : (ofFault (.layout fault)).hasErrors = true := by
  cases fault <;> rfl

/-- A clean analysis has read a deck, and none of its phases has an error to report. -/
theorem hasErrors_ofText {settings : Settings} {text : String} :
    (ofText settings text).hasErrors = false ↔
      ∃ blocks, Blocks.ofText text = .ok blocks ∧
        ∀ r ∈ phases settings (.ofBlocks blocks) (.ofDeck (Reading.ofBlocks blocks).deck),
          r.isError = false := by
  unfold ofText
  cases Blocks.ofText text with
  | error fault => simp [hasErrors_ofFault]
  | ok blocks => simp [hasErrors_ofReading]

end Analysis

end TransportDeck
