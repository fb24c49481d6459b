import TransportDeck.Proofs.CrossRefs.ReportsByCode
import TransportDeck.Proofs.CrossRefs.Targets
import TransportDeck.Proofs.Reference.InTurn

namespace TransportDeck

namespace Deck

instance (d : Deck) (t : Target) : Decidable (d.Holds t) :=
  decidable_of_iff _ CrossRefs.defines_ofDeck

def missing (d : Deck) (span : Span) (names : List Reference) : List Diagnostic :=
  (names.filter fun r => ¬ d.Holds r.target).map fun r => (Finding.undefined r).report (some span)

def Closed (d : Deck) : Prop :=
  ∀ r, d.Names r → d.Holds r.target

end Deck

namespace CrossRefs

variable {d : Deck}

theorem dangling_eq_missing (span : Span) (names : List Reference) :
    (ofDeck d).dangling span names = d.missing span names := by
  unfold dangling Deck.missing
  congr 1
  apply List.filter_congr
  intro r _
  by_cases hholds : d.Holds r.target
  · simp [hholds, defines_ofDeck.mpr hholds]
  · have hundefined : (ofDeck d).defines r.target = false :=
      Bool.eq_false_iff.mpr fun h => hholds (defines_ofDeck.mp h)
    simp [hholds, hundefined]

theorem missing_eq_nil_iff {span : Span} {names : List Reference} :
    d.missing span names = [] ↔ ∀ r ∈ names, d.Holds r.target := by
  rw [← dangling_eq_missing]
  exact dangling_eq_nil_iff

/-- The reports of missing targets go through the cells, the surfaces and the data cards, and on each
card through what it names in turn. They report what the deck does not hold and nothing else, so there
are none exactly if the deck is closed. -/
theorem missing_targets_reported_in_turn (d : Deck) :
    (∀ c : Cell, c.NamesInTurn c.references) ∧
    (∀ s : Surface, s.NamesInTurn s.references) ∧
    (∀ card : DataCard, card.NamesInTurn card.references) ∧
    reportsUnder Code.undefinedTargets ((ofDeck d).reports d) =
      d.cells.flatMap (fun c => d.missing c.span c.references) ++
      d.surfaces.flatMap (fun s => d.missing s.span s.references) ++
      d.data.flatMap (fun card => d.missing card.span card.references) ∧
    (reportsUnder Code.undefinedTargets ((ofDeck d).reports d) = [] ↔ d.Closed) := by
  have hreports : reportsUnder Code.undefinedTargets ((ofDeck d).reports d) =
      d.cells.flatMap (fun c => d.missing c.span c.references) ++
      d.surfaces.flatMap (fun s => d.missing s.span s.references) ++
      d.data.flatMap (fun card => d.missing card.span card.references) := by
    rw [reportsUnder_undefined]
    simp only [dangling_eq_missing]
  refine ⟨Cell.namesInTurn_references, Surface.namesInTurn_references,
    DataCard.namesInTurn_references, hreports, ?_⟩
  rw [hreports]
  simp only [List.append_eq_nil_iff, List.flatMap_eq_nil_iff, missing_eq_nil_iff,
    Cell.mem_references_iff, Surface.mem_references_iff, DataCard.mem_references_iff]
  constructor
  · rintro ⟨⟨hcells, hsurfaces⟩, hcards⟩ r hr
    cases hr with
    | cell hc hr => exact hcells _ hc r hr
    | surface hs hr => exact hsurfaces _ hs r hr
    | card hcard hr => exact hcards _ hcard r hr
  · intro hclosed
    refine ⟨⟨?_, ?_⟩, ?_⟩
    · exact fun c hc r hr => hclosed r (.cell hc hr)
    · exact fun s hs r hr => hclosed r (.surface hs hr)
    · exact fun card hcard r hr => hclosed r (.card hcard hr)

end CrossRefs

end TransportDeck
