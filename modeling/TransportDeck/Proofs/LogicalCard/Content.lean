import TransportDeck.LogicalCard

namespace TransportDeck

/-- A comment card, or a line that is blank once its inline comment is removed. -/
def PhysicalLine.Contentless (line : PhysicalLine) : Prop :=
  Text.isComment line.text = true ∨ Text.isBlankText (Text.splitComment line.text).1 = true

theorem PhysicalLine.exists_content_iff {line : PhysicalLine} :
    (∃ content, line.cardLine? = some (.content content)) ↔ ¬ line.Contentless := by
  unfold Contentless
  by_cases hcomment : Text.isComment line.text = true
  · simp [cardLine?, hcomment]
  · by_cases hblank : Text.isBlankText (Text.splitComment line.text).1 = true
    · simp [cardLine?, hcomment, hblank]
    · simp [cardLine?, hcomment, hblank]

namespace LogicalCard

/-- A card that is open is a card in the end. -/
theorem gather_ne_nil (card : LogicalCard) (continued : Bool) (lines : List CardLine) :
    gather card continued lines ≠ [] := by
  induction lines generalizing card continued with
  | nil => simp [gather]
  | cons line rest ih =>
    cases line with
    | remark number comment => exact ih _ _
    | content line =>
      rw [gather]
      split
      · exact ih _ _
      · exact List.cons_ne_nil _ _

theorem ofCardLines_eq_nil_iff {lines : List CardLine} :
    ofCardLines lines = [] ↔ ∀ content, .content content ∉ lines := by
  induction lines with
  | nil => simp [ofCardLines]
  | cons line rest ih =>
    cases line with
    | remark number comment => simpa [ofCardLines] using ih
    | content line =>
      constructor
      · intro hnil
        exact absurd hnil (gather_ne_nil _ _ rest)
      · intro hnone
        exact absurd List.mem_cons_self (hnone line)

theorem ofLines_eq_nil_iff {lines : List PhysicalLine} :
    ofLines lines = [] ↔ ∀ line ∈ lines, line.Contentless := by
  rw [ofLines, ofCardLines_eq_nil_iff]
  constructor
  · intro hnone line hline
    apply Classical.byContradiction
    intro hcontent
    obtain ⟨content, hcard⟩ := PhysicalLine.exists_content_iff.mpr hcontent
    exact hnone content (List.mem_filterMap.mpr ⟨line, hline, hcard⟩)
  · intro hall content hmem
    obtain ⟨line, hline, hcard⟩ := List.mem_filterMap.mp hmem
    exact PhysicalLine.exists_content_iff.mp ⟨content, hcard⟩ (hall line hline)

end LogicalCard

end TransportDeck
