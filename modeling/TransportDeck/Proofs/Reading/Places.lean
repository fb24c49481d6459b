import TransportDeck.Proofs.Blocks.LineRange
import TransportDeck.Proofs.Like.Expand

namespace TransportDeck

structure Deck.Placed (P : Span → Prop) (d : Deck) : Prop where
  cells : ∀ c ∈ d.cells, P c.span
  surfaces : ∀ s ∈ d.surfaces, P s.span
  data : ∀ card ∈ d.data, P card.span
  materials : ∀ m ∈ d.materials, P m.span
  thermals : ∀ t ∈ d.thermals, P t.span
  transforms : ∀ t ∈ d.transforms, P t.span
  tallies : ∀ t ∈ d.tallies, P t.span

def Placed (P : Span → Prop) (reports : List Diagnostic) : Prop :=
  ∀ r ∈ reports, ∀ span ∈ r.span, P span

variable {P : Span → Prop} {α : Type}

section Reports

theorem placed_nil : Placed P [] :=
  fun _ hr => absurd hr List.not_mem_nil

theorem Placed.append {before after : List Diagnostic} (hbefore : Placed P before)
    (hafter : Placed P after) : Placed P (before ++ after) := by
  intro r hr
  rcases List.mem_append.mp hr with hr | hr
  · exact hbefore r hr
  · exact hafter r hr

theorem Placed.subset {reports part : List Diagnostic} (h : Placed P reports)
    (hpart : part ⊆ reports) : Placed P part :=
  fun r hr => h r (hpart hr)

theorem placed_flatMap {records : List α} {reports : α → List Diagnostic}
    (h : ∀ a ∈ records, Placed P (reports a)) : Placed P (records.flatMap reports) := by
  intro r hr
  obtain ⟨a, ha, hr⟩ := List.mem_flatMap.mp hr
  exact h a ha r hr

theorem placed_map (findings : List α) {report : α → Diagnostic}
    (h : ∀ a, ∀ span ∈ (report a).span, P span) : Placed P (findings.map report) := by
  intro r hr
  obtain ⟨a, _, rfl⟩ := List.mem_map.mp hr
  exact h a

/-- Reports on lines that satisfy `P`. -/
theorem placed_on {span : Span} (hspan : P span) (findings : List α) {report : α → Diagnostic}
    (h : ∀ a, (report a).span = some span) : Placed P (findings.map report) := by
  refine placed_map findings fun a s hs => ?_
  rw [h a] at hs
  exact Option.mem_some.mp hs ▸ hspan

theorem placed_findings {span : Span} (hspan : P span) (findings : List Finding) :
    Placed P (findings.map (·.report (some span))) :=
  placed_on hspan findings fun _ => rfl

/-- Reports on nothing in particular. -/
theorem placed_nowhere (findings : List Finding) : Placed P (findings.map (·.report none)) :=
  placed_map findings fun _ _ hspan => absurd hspan (Option.not_mem_none _)

end Reports

namespace BlockRules

variable (rules : BlockRules α) {results : List (Span × CardResult α)}

theorem placed_reports_keepFirst (before : List α) (seen : List (RecordKey × Span))
    (h : ∀ result ∈ results, P result.1) : Placed P (rules.keepFirst before seen results).2 := by
  have hspan {span : Span} {result : CardResult α} (hmem : (span, result) ∈ results) :
      ∀ s ∈ some span, P s :=
    fun s hs => Option.mem_some.mp hs ▸ h _ hmem
  apply rules.forall_reports_keepFirst (P := fun r => ∀ span ∈ r.span, P span)
  · exact fun span issue hmem => hspan hmem
  · exact fun span a issues hmem =>
      ⟨fun _ _ => hspan hmem, fun _ _ _ => hspan hmem, fun _ _ => hspan hmem, fun _ _ => hspan hmem⟩

/-- The records that are kept stand on the lines of their cards. -/
theorem placed_keepFirst (spanOf : α → Span) (hplace : ∀ span a, spanOf (rules.place span a) = span)
    (h : ∀ result ∈ results, P result.1) :
    ∀ a ∈ (rules.keepFirst [] [] results).1, P (spanOf a) := by
  intro a ha
  obtain ⟨span, own, issues, hmem, rfl⟩ := rules.exists_result_of_kept [] [] results a ha
  rw [hplace]
  exact h _ hmem

end BlockRules

/-- What a data card carries stands on the lines of the card. -/
theorem DataCard.span_of_place (span : Span) (card : DataCard) :
    (∀ m, (card.place span).material? = some m → m.span = span) ∧
    (∀ t, (card.place span).thermal? = some t → t.span = span) ∧
    (∀ t, (card.place span).transform? = some t → t.span = span) ∧
    (∀ t, (card.place span).tally? = some t → t.span = span) := by
  unfold place material? thermal? transform? tally?
  cases card.payload <;> simp +contextual [Payload.place, eq_comm]

theorem Cell.placed_expand {cells : List Cell} {c : Cell} (hspan : P c.span) :
    Placed P (c.expand cells).2 := by
  unfold expand
  split
  · exact placed_nil
  · split
    · exact placed_on hspan _ fun _ => rfl
    · exact placed_findings hspan [_]
    · exact placed_findings hspan [_]

namespace Reading

variable {blocks : Blocks}

theorem placed_results (rules : BlockRules α) {cards : List LogicalCard}
    (h : ∀ card ∈ cards, P card.span) : ∀ result ∈ rules.results cards, P result.1 := by
  intro result hresult
  obtain ⟨card, hcard, rfl⟩ := List.mem_map.mp hresult
  exact h card hcard

theorem placed_writtenCells (h : ∀ card ∈ blocks.cells, P card.span) :
    ∀ c ∈ blocks.writtenCells, P c.span :=
  Cell.rules.placed_keepFirst Cell.span (fun _ _ => rfl) (placed_results Cell.rules h)

/-- The records that data cards carry are placed with the cards. -/
theorem placed_carried (h : ∀ card ∈ blocks.data, P card.span) {record? : DataCard → Option α}
    {spanOf : α → Span}
    (hspan : ∀ span card a, record? (DataCard.place span card) = some a → spanOf a = span) :
    ∀ a ∈ (ofBlocks blocks).deck.data.filterMap record?, P (spanOf a) := by
  intro a ha
  obtain ⟨card, hcard, hrecord⟩ := List.mem_filterMap.mp ha
  obtain ⟨span, own, issues, hmem, hplace⟩ := DataCard.rules.exists_result_of_kept [] [] _ card hcard
  rw [hplace] at hrecord
  rw [hspan span own a hrecord]
  exact placed_results DataCard.rules h _ hmem

/-- What holds of the lines of every card holds of those of every record and report. -/
theorem placed_ofBlocks (h : ∀ card ∈ blocks.cards, P card.span) :
    (ofBlocks blocks).deck.Placed P ∧ Placed P (ofBlocks blocks).reports := by
  have hcells : ∀ card ∈ blocks.cells, P card.span :=
    fun card hcard => h card (by simp [Blocks.cards, hcard])
  have hsurfaces : ∀ card ∈ blocks.surfaces, P card.span :=
    fun card hcard => h card (by simp [Blocks.cards, hcard])
  have hdata : ∀ card ∈ blocks.data, P card.span :=
    fun card hcard => h card (by simp [Blocks.cards, hcard])
  constructor
  · constructor
    · rw [cells_ofBlocks]
      intro c hc
      obtain ⟨own, hown, rfl⟩ := List.mem_map.mp hc
      rw [(Cell.expand_keeps blocks.nodup_number_writtenCells hown).2.1]
      exact placed_writtenCells hcells own hown
    · exact Surface.rules.placed_keepFirst Surface.span (fun _ _ => rfl)
        (placed_results Surface.rules hsurfaces)
    · exact DataCard.rules.placed_keepFirst DataCard.span (fun _ _ => rfl)
        (placed_results DataCard.rules hdata)
    · exact placed_carried hdata fun span card => (card.span_of_place span).1
    · exact placed_carried hdata fun span card => (card.span_of_place span).2.1
    · exact placed_carried hdata fun span card => (card.span_of_place span).2.2.1
    · exact placed_carried hdata fun span card => (card.span_of_place span).2.2.2
  · have hlike : Placed P (expandLike blocks.writtenCells).2 := by
      rw [expandLike, List.flatMap_map]
      exact placed_flatMap fun c hc => Cell.placed_expand (placed_writtenCells hcells c hc)
    have hcellCards := Cell.rules.placed_reports_keepFirst [] [] (placed_results Cell.rules hcells)
    have hsurfaceCards := Surface.rules.placed_reports_keepFirst [] []
      (placed_results Surface.rules hsurfaces)
    have hdataCards := DataCard.rules.placed_reports_keepFirst [] []
      (placed_results DataCard.rules hdata)
    rw [reports_ofBlocks]
    exact ((hcellCards.append hlike).append hsurfaceCards).append hdataCards

end Reading

end TransportDeck
