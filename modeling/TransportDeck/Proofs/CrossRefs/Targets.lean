import TransportDeck.Proofs.Analysis.Errors
import TransportDeck.Table.Lookup

namespace TransportDeck

/-- The deck holds what a target names. Universe zero is always there. -/
def Deck.Holds (d : Deck) (t : Target) : Prop :=
  match t.kind with
  | .cell => ∃ c ∈ d.cells, c.number = t.number
  | .surface => ∃ s ∈ d.surfaces, s.number = t.number
  | .material => ∃ m ∈ d.materials, m.number = t.number
  | .transform => ∃ x ∈ d.transforms, x.number = t.number
  | .universe => t.number = 0 ∨ ∃ c ∈ d.cells, c.universeId = t.number

/-- A reference without a target makes the deck invalid, whatever it refers to. -/
theorem Reference.isError_code (r : Reference) : r.code.severity.isError = true := by
  cases r <;> rfl

namespace CrossRefs

variable {d : Deck} {t : Target}

theorem contains_ofList_map {α : Type} (records : List α) (number : α → Nat) (span : α → Span)
    (n : Nat) :
    (Table.ofList (records.map fun a => (number a, span a))).contains n = true ↔
      ∃ a ∈ records, number a = n := by
  rw [Table.contains_iff_mem_keys, Table.mem_keys_ofList, List.map_map, List.mem_map]
  rfl

theorem mem_keys_universes {u : Nat} :
    u ∈ (ofDeck d).universes.keys ↔ u = 0 ∨ ∃ c ∈ d.cells, c.universeId = u := by
  change u ∈ (tabulate _ _).keys ↔ _
  rw [mem_keys_tabulate, List.mem_cons, List.mem_map]

theorem hasUniverse_ofDeck {u : Nat} :
    (ofDeck d).hasUniverse u = true ↔ u = 0 ∨ ∃ c ∈ d.cells, c.universeId = u := by
  rw [hasUniverse, Bool.or_eq_true, Table.contains_iff_mem_keys, mem_keys_universes, beq_iff_eq]
  constructor
  · rintro (hzero | h)
    · exact .inl hzero
    · exact h
  · exact .inr

theorem defines_ofDeck : (ofDeck d).defines t = true ↔ d.Holds t := by
  obtain ⟨kind, n⟩ := t
  match kind with
  | .cell => exact contains_ofList_map d.cells (·.number) (·.span) n
  | .surface => exact contains_ofList_map d.surfaces (·.number) (·.span) n
  | .material => exact contains_ofList_map d.materials (·.number) (·.span) n
  | .transform => exact contains_ofList_map d.transforms (·.number) (·.span) n
  | .universe => exact hasUniverse_ofDeck

/-- References give no report exactly if all of them have their targets. -/
theorem dangling_eq_nil_iff {span : Span} {references : List Reference} :
    (ofDeck d).dangling span references = [] ↔ ∀ r ∈ references, d.Holds r.target := by
  rw [dangling, List.map_eq_nil_iff, List.filter_eq_nil_iff]
  simp only [Bool.not_eq_true', Bool.not_eq_false, defines_ofDeck]

theorem isError_of_mem_dangling {refs : CrossRefs} {span : Span} {references : List Reference}
    {report : Diagnostic} (h : report ∈ refs.dangling span references) : report.isError = true := by
  obtain ⟨r, _, rfl⟩ := List.mem_map.mp h
  exact r.isError_code

/-- Where the cross references report no error, every reference of the deck has its target. -/
theorem holds_of_no_errors (h : ∀ report ∈ (ofDeck d).reports d, report.isError = false) :
    ∀ r ∈ d.references, d.Holds r.target := by
  have hclean (span : Span) {references : List Reference}
      (hsub : (ofDeck d).dangling span references ⊆ (ofDeck d).reports d) :
      ∀ r ∈ references, d.Holds r.target := by
    have hnone : (ofDeck d).dangling span references = [] :=
      eq_nil_of_clean (fun _ hreport => isError_of_mem_dangling hreport)
        fun report hreport => h report (hsub hreport)
    exact dangling_eq_nil_iff.mp hnone
  intro r hr
  simp only [Deck.references, List.mem_append, List.mem_flatMap] at hr
  rcases hr with (⟨c, hc, hr⟩ | ⟨s, hs, hr⟩) | ⟨card, hcard, hr⟩
  · refine hclean c.span (fun report hreport => ?_) r hr
    simp only [reports, List.mem_append, List.mem_flatMap]
    exact .inl (.inl (.inl ⟨c, hc, hreport⟩))
  · refine hclean s.span (fun report hreport => ?_) r hr
    simp only [reports, List.mem_append, List.mem_flatMap]
    exact .inl (.inl (.inr ⟨s, hs, hreport⟩))
  · refine hclean card.span (fun report hreport => ?_) r hr
    simp only [reports, List.mem_append, List.mem_flatMap]
    exact .inl (.inr ⟨card, hcard, .inl hreport⟩)

end CrossRefs

end TransportDeck
