import TransportDeck.Proofs.Reading.KeepFirst
import TransportDeck.Table.Lookup

namespace TransportDeck

theorem Finding.value?_report (f : Finding) (span : Option Span) (key : String) :
    (f.report span).value? key = f.values.lookup key :=
  Table.find?_ofList f.values key

def undefinedCells (reports : List Diagnostic) : List Diagnostic :=
  reports.filter fun r => r.code = .undefinedCell

def Code.ofCards : List Code :=
  [parseNumber, parseTokenCount, parseMaterialZaid, parseFillArrayCardinality, tallyKind,
    duplicateEntityNumber, unknownDataCard, materialMixedFractions]

def Code.ofFaults : List Code :=
  [parseNumber, parseTokenCount, parseMaterialZaid, parseFillArrayCardinality, tallyKind]

theorem CardFault.code_mem_ofFaults (fault : CardFault) : fault.code ∈ Code.ofFaults := by
  cases fault <;> simp [code, Code.ofFaults]

theorem CardFault.code_mem (fault : CardFault) : fault.code ∈ Code.ofCards :=
  (show Code.ofFaults ⊆ Code.ofCards by decide) fault.code_mem_ofFaults

theorem CardFault.code_ne_duplicate (fault : CardFault) : fault.code ≠ .duplicateEntityNumber := by
  have hcodes : ∀ code ∈ Code.ofFaults, code ≠ .duplicateEntityNumber := by decide
  exact hcodes fault.code fault.code_mem_ofFaults

theorem CardFault.severity_code (fault : CardFault) : fault.code.severity = .error := by
  have hcodes : ∀ code ∈ Code.ofFaults, code.severity = .error := by decide
  exact hcodes fault.code fault.code_mem_ofFaults

theorem BlockRules.code_mem_keepFirst {α : Type} (rules : BlockRules α)
    (hremarks : ∀ before a, ∀ f ∈ rules.remarks before a, f.code ∈ Code.ofCards)
    (haudit : ∀ a, ∀ f ∈ rules.audit a, f.code ∈ Code.ofCards)
    (results : List (Span × CardResult α)) :
    ∀ r ∈ (rules.keepFirst [] [] results).2, r.code ∈ Code.ofCards := by
  apply rules.forall_reports_keepFirst (P := fun r => r.code ∈ Code.ofCards)
  · exact fun _ issue _ => issue.fault.code_mem
  · intro span a issues _
    have hduplicate : Code.duplicateEntityNumber ∈ Code.ofCards := by decide
    exact ⟨fun issue _ => issue.fault.code_mem, fun before => hremarks before a,
      fun _ _ => hduplicate, haudit a⟩

theorem Cell.code_mem_keepFirst (results : List (Span × CardResult Cell)) :
    ∀ r ∈ (Cell.rules.keepFirst [] [] results).2, r.code ∈ Code.ofCards :=
  Cell.rules.code_mem_keepFirst (fun _ _ _ hf => absurd hf List.not_mem_nil)
    (fun _ _ hf => absurd hf List.not_mem_nil) results

theorem Surface.code_mem_keepFirst (results : List (Span × CardResult Surface)) :
    ∀ r ∈ (Surface.rules.keepFirst [] [] results).2, r.code ∈ Code.ofCards :=
  Surface.rules.code_mem_keepFirst (fun _ _ _ hf => absurd hf List.not_mem_nil)
    (fun _ _ hf => absurd hf List.not_mem_nil) results

/-- Data cards are also reported for an unknown mnemonic and for fractions of both kinds. -/
theorem DataCard.code_mem_keepFirst (results : List (Span × CardResult DataCard)) :
    ∀ r ∈ (DataCard.rules.keepFirst [] [] results).2, r.code ∈ Code.ofCards := by
  apply DataCard.rules.code_mem_keepFirst
  · intro before card f hf
    change f ∈ DataCard.remarks before card at hf
    rw [DataCard.remarks] at hf
    split at hf
    · cases hf
    · simp [List.mem_singleton.mp hf, Finding.code, Code.ofCards]
  · intro card f hf
    change f ∈ DataCard.audit card at hf
    rw [DataCard.audit] at hf
    split at hf
    · cases hf
    · split at hf
      · simp [List.mem_singleton.mp hf, Finding.code, Code.ofCards]
      · cases hf

theorem undefinedCells_of_cards {reports : List Diagnostic}
    (h : ∀ r ∈ reports, r.code ∈ Code.ofCards) : undefinedCells reports = [] := by
  apply List.filter_eq_nil_iff.mpr
  intro r hr hcode
  have hmem := h r hr
  rw [of_decide_eq_true hcode] at hmem
  exact absurd hmem (by decide)

theorem undefinedCells_issues (card : Option String) (faults : List CardFault) (span : Span) :
    undefinedCells (faults.map fun fault => CardIssue.report ⟨card, fault⟩ span) = [] := by
  apply undefinedCells_of_cards
  intro r hr
  obtain ⟨fault, _, rfl⟩ := List.mem_map.mp hr
  exact fault.code_mem

/-- Undefined cells are reported for the written cells, one after the other. -/
theorem undefinedCells_ofBlocks (blocks : Blocks) :
    undefinedCells (Reading.ofBlocks blocks).reports =
      blocks.writtenCells.flatMap fun c => undefinedCells (c.expand blocks.writtenCells).2 := by
  have hcells := undefinedCells_of_cards
    (Cell.code_mem_keepFirst (Cell.rules.results blocks.cells))
  have hsurfaces := undefinedCells_of_cards
    (Surface.code_mem_keepFirst (Surface.rules.results blocks.surfaces))
  have hdata := undefinedCells_of_cards
    (DataCard.code_mem_keepFirst (DataCard.rules.results blocks.data))
  have hlike : undefinedCells (expandLike blocks.writtenCells).2 =
      blocks.writtenCells.flatMap fun c => undefinedCells (c.expand blocks.writtenCells).2 := by
    rw [undefinedCells, expandLike, List.filter_flatMap, List.flatMap_map]
    rfl
  simp only [undefinedCells] at hcells hsurfaces hdata hlike
  simp only [undefinedCells, Reading.reports_ofBlocks, List.filter_append, hcells, hsurfaces, hdata, hlike,
    List.nil_append, List.append_nil]

end TransportDeck
