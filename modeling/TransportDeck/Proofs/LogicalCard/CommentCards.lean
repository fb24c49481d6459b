import Mathlib.Order.MinMax
import TransportDeck.Proofs.Text.Trimming
import TransportDeck.LogicalCard

namespace TransportDeck

def CommentCard (line : List Char) : Prop :=
  ∃ blanks c rest, line = blanks ++ c :: rest ∧ (∀ b ∈ blanks, Text.isBlank b = true) ∧
    (c = 'c' ∨ c = 'C') ∧ ∀ next ∈ rest.head?, Text.isBlank next = true

theorem CommentCard.isComment {line : List Char} (h : CommentCard line) :
    Text.isComment line = true := by
  obtain ⟨blanks, c, rest, rfl, hblanks, hc, hrest⟩ := h
  have hletter : Text.isBlank c = false := by
    rcases hc with rfl | rfl
    · decide
    · decide
  have hstart : Text.trimStart (blanks ++ c :: rest) = c :: rest := by
    rw [Text.trimStart_append_of_blank hblanks, Text.trimStart, List.dropWhile_cons_of_neg]
    simp [hletter]
  have hnext : rest.head?.all Text.isBlank = true := by
    cases rest with
    | nil => rfl
    | cons next rest => exact hrest next rfl
  rw [Text.isComment, hstart]
  simpa [hnext] using hc

theorem CommentCard.not_blank {line : List Char} (h : CommentCard line) :
    Text.isBlankText line = false := by
  obtain ⟨blanks, c, rest, rfl, _, hc, _⟩ := h
  have hletter : Text.isBlank c = false := by
    rcases hc with rfl | rfl
    · decide
    · decide
  simp [Text.isBlankText, hletter]

section Renumber

variable (number : Nat → Nat)

def PhysicalLine.renumber (line : PhysicalLine) : PhysicalLine :=
  { line with number := number line.number }

def ContentLine.renumber (line : ContentLine) : ContentLine :=
  { line with number := number line.number }

def CardLine.renumber : CardLine → CardLine
  | remark n comment => remark (number n) comment
  | content line => content (line.renumber number)

def LogicalCard.renumber (card : LogicalCard) : LogicalCard where
  text := card.text
  span := ⟨number card.span.first, number card.span.last⟩
  comments := card.comments.map fun c => (number c.1, c.2)

end Renumber

/-- The second lines are the first under other numbers, with comment cards put in anywhere. -/
inductive Commented (number : Nat → Nat) : List PhysicalLine → List PhysicalLine → Prop
  | nil : Commented number [] []
  | line {line : PhysicalLine} {rest rest' : List PhysicalLine} : Commented number rest rest' →
      Commented number (line :: rest) (line.renumber number :: rest')
  | comment {card : PhysicalLine} {lines lines' : List PhysicalLine} : CommentCard card.text →
      Commented number lines lines' → Commented number lines (card :: lines')

namespace Commented

variable {number : Nat → Nat} {lines lines' more more' : List PhysicalLine}

theorem map_renumber (number : Nat → Nat) (lines : List PhysicalLine) :
    Commented number lines (lines.map (.renumber number)) := by
  induction lines with
  | nil => exact .nil
  | cons line rest ih => exact .line ih

theorem append (h : Commented number lines lines') (hmore : Commented number more more') :
    Commented number (lines ++ more) (lines' ++ more') := by
  induction h with
  | nil => exact hmore
  | line _ ih => exact .line ih
  | comment hcard _ ih => exact .comment hcard ih

end Commented

namespace LogicalCard

variable {number : Nat → Nat} {lines lines' : List PhysicalLine}

theorem cardLine?_renumber (number : Nat → Nat) (line : PhysicalLine) :
    (line.renumber number).cardLine? = line.cardLine?.map (.renumber number) := by
  simp only [PhysicalLine.cardLine?, PhysicalLine.renumber]
  by_cases hcomment : Text.isComment line.text = true
  · simp [hcomment]
  · by_cases hblank : Text.isBlankText (Text.splitComment line.text).1 = true
    · cases hremark : (Text.splitComment line.text).2 with
      | none => simp [hcomment, hblank]
      | some remark => simp [hcomment, hblank, CardLine.renumber]
    · simp only [hcomment, hblank]
      rfl

theorem cardLines_commented (h : Commented number lines lines') :
    lines'.filterMap PhysicalLine.cardLine? =
      (lines.filterMap PhysicalLine.cardLine?).map (.renumber number) := by
  induction h with
  | nil => rfl
  | @line line rest rest' _ ih =>
    rw [List.filterMap_cons, List.filterMap_cons, cardLine?_renumber]
    cases line.cardLine? with
    | none => exact ih
    | some cardLine => exact congrArg (cardLine.renumber number :: ·) ih
  | @comment card lines lines' hcard _ ih =>
    have hnone : card.cardLine? = none := by rw [PhysicalLine.cardLine?, if_pos hcard.isComment]
    rw [List.filterMap_cons_none hnone]
    exact ih

theorem ofLine_renumber (number : Nat → Nat) (line : ContentLine) :
    ofLine (line.renumber number) = (ofLine line).renumber number := by
  simp [ofLine, renumber, ContentLine.renumber, lineComments, Span.line, Span.new]

/-- A card ends on the last of its lines whatever the numbers, as long as they keep their order. -/
theorem extend_renumber (hnumber : Monotone number) (card : LogicalCard) (line : ContentLine) :
    (card.renumber number).extend (line.renumber number) = (card.extend line).renumber number := by
  have hlast : max (number card.span.last) (number line.number) =
      number (max card.span.last line.number) := hnumber.map_max.symm
  simp [extend, renumber, ContentLine.renumber, lineComments, Span.extendTo, hlast]

theorem gather_renumber (hnumber : Monotone number) (card : LogicalCard) (continued : Bool)
    (lines : List CardLine) :
    gather (card.renumber number) continued (lines.map (.renumber number)) =
      (gather card continued lines).map (.renumber number) := by
  induction lines generalizing card continued with
  | nil => rfl
  | cons line rest ih =>
    cases line with
    | remark n comment =>
      have hremark : (card.renumber number).addRemark (number n) comment =
          (card.addRemark n comment).renumber number := by
        simp [addRemark, renumber]
      rw [List.map_cons, CardLine.renumber, gather, gather, hremark]
      exact ih _ _
    | content line =>
      have hindented : (line.renumber number).indented = line.indented := rfl
      rw [List.map_cons, CardLine.renumber, gather, gather, hindented]
      split
      · rw [extend_renumber hnumber]
        exact ih _ _
      · rw [ofLine_renumber, List.map_cons]
        exact congrArg (card.renumber number :: ·) (ih _ _)

theorem ofCardLines_renumber (hnumber : Monotone number) (lines : List CardLine) :
    ofCardLines (lines.map (.renumber number)) = (ofCardLines lines).map (.renumber number) := by
  induction lines with
  | nil => rfl
  | cons line rest ih =>
    cases line with
    | remark n comment => exact ih
    | content line =>
      rw [List.map_cons, CardLine.renumber, ofCardLines, ofCardLines, ofLine_renumber]
      exact gather_renumber hnumber _ _ _

/-- Comment cards leave the cards around them as they are. -/
theorem ofLines_commented (hnumber : Monotone number) (h : Commented number lines lines') :
    ofLines lines' = (ofLines lines).map (.renumber number) := by
  rw [ofLines, ofLines, cardLines_commented h, ofCardLines_renumber hnumber]

end LogicalCard

end TransportDeck
