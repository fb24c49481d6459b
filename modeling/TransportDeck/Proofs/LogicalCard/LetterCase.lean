import TransportDeck.LogicalCard
import TransportDeck.Proofs.Text.LetterCase

namespace TransportDeck

def PhysicalLine.lower (line : PhysicalLine) : PhysicalLine :=
  { line with text := Text.lower line.text }

def ContentLine.lower (line : ContentLine) : ContentLine :=
  { line with body := Text.lower line.body, comment := line.comment.map Text.lowered }

def CardLine.lower : CardLine → CardLine
  | remark number comment => remark number (Text.lowered comment)
  | content line => content line.lower

def LogicalCard.lower (card : LogicalCard) : LogicalCard where
  text := Text.lowered card.text
  span := card.span
  comments := card.comments.map fun c => (c.1, Text.lowered c.2)

theorem PhysicalLine.isBlank_lower (line : PhysicalLine) : line.lower.isBlank = line.isBlank :=
  Text.isBlankText_lower line.text

theorem splitAmpersand_lower (content : List Char) : splitAmpersand (Text.lower content) =
    (Text.lower (splitAmpersand content).1, (splitAmpersand content).2) := by
  have hlast : (Text.lower content).getLast? = some '&' ↔ content.getLast? = some '&' :=
    Text.getLast?_lower (by decide)
  unfold splitAmpersand
  simp only [hlast]
  split
  · rw [Text.lower, ← List.map_dropLast]
    rfl
  · rfl

theorem PhysicalLine.cardLine?_lower (line : PhysicalLine) :
    line.lower.cardLine? = line.cardLine?.map CardLine.lower := by
  have hindent : Text.indentWidth line.lower.text = Text.indentWidth line.text :=
    Text.indentFrom_lower 0 line.text
  have hcomment (comment : Option (List Char)) :
      (comment.map Text.lower).map (fun c => String.ofList (Text.trim c)) =
        (comment.map fun c => String.ofList (Text.trim c)).map Text.lowered := by
    rw [Option.map_map, Option.map_map]
    congr 1
    funext c
    simp [Text.trim_lower]
  unfold cardLine?
  rw [hindent, lower]
  simp only [Text.isComment_lower, Text.splitComment_lower, Text.isBlankText_lower, hcomment,
    Text.trimEnd_lower, splitAmpersand_lower, Text.trim_lower]
  split
  · rfl
  · split
    · cases (Text.splitComment line.text).2 <;> rfl
    · rfl

namespace LogicalCard

theorem lineComments_lower (line : ContentLine) :
    lineComments line.lower = (lineComments line).map fun c => (c.1, Text.lowered c.2) := by
  unfold lineComments ContentLine.lower
  cases line.comment <;> rfl

theorem appendBody_lower (text : String) (body : List Char) :
    appendBody (Text.lowered text) (Text.lower body) = Text.lowered (appendBody text body) := by
  have hbody : (Text.lower body).isEmpty = body.isEmpty := List.isEmpty_map
  have htext : (Text.lowered text).isEmpty = text.isEmpty := by
    rw [Bool.eq_iff_iff, String.isEmpty_iff, String.isEmpty_iff, ← String.toList_eq_nil_iff,
      ← String.toList_eq_nil_iff, Text.toList_lowered, Text.lower, List.map_eq_nil_iff]
  have hspace : Text.lowered " " = " " := by decide
  unfold appendBody
  rw [hbody, htext]
  split
  · rfl
  · split
    · rw [Text.lowered_ofList]
    · rw [Text.lowered_append, Text.lowered_append, hspace, Text.lowered_ofList]

theorem ofLine_lower (line : ContentLine) : ofLine line.lower = (ofLine line).lower := by
  rw [ofLine, lineComments_lower, ofLine, lower]
  simp [ContentLine.lower]

theorem extend_lower (card : LogicalCard) (line : ContentLine) :
    card.lower.extend line.lower = (card.extend line).lower := by
  have htext : appendBody card.lower.text line.lower.body =
      Text.lowered (appendBody card.text line.body) := appendBody_lower card.text line.body
  rw [extend, htext, lineComments_lower, extend, lower, lower, List.map_append]
  rfl

theorem addRemark_lower (card : LogicalCard) (number : Nat) (comment : String) :
    card.lower.addRemark number (Text.lowered comment) = (card.addRemark number comment).lower := by
  simp [addRemark, lower]

/-- A line starts a card in lower case exactly if it starts one as written. -/
theorem gather_lower (card : LogicalCard) (continued : Bool) (lines : List CardLine) :
    gather card.lower continued (lines.map CardLine.lower) =
      (gather card continued lines).map lower := by
  induction lines generalizing card continued with
  | nil => rfl
  | cons first rest ih =>
    cases first with
    | remark number comment =>
      rw [List.map_cons, CardLine.lower, gather, addRemark_lower, ih, gather]
    | content line =>
      have hindented : line.lower.indented = line.indented := rfl
      have hcontinued : line.lower.continued = line.continued := rfl
      rw [List.map_cons, CardLine.lower, gather, gather, hindented, hcontinued, extend_lower,
        ofLine_lower, ih, ih]
      split <;> rfl

theorem ofCardLines_lower (lines : List CardLine) :
    ofCardLines (lines.map CardLine.lower) = (ofCardLines lines).map lower := by
  induction lines with
  | nil => rfl
  | cons first rest ih =>
    cases first with
    | remark number comment => exact ih
    | content line =>
      rw [List.map_cons, CardLine.lower, ofCardLines, ofLine_lower]
      exact gather_lower (ofLine line) line.continued rest

theorem ofLines_lower (lines : List PhysicalLine) :
    ofLines (lines.map PhysicalLine.lower) = (ofLines lines).map lower := by
  rw [ofLines, List.filterMap_map, ofLines, ← ofCardLines_lower, List.map_filterMap]
  congr 2
  funext line
  exact line.cardLine?_lower

end LogicalCard

end TransportDeck
