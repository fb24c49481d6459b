import TransportDeck.Span
import TransportDeck.Text.Line

/-!
Logical cards. A card starts on one physical line and goes on over later ones: after a line that
ends in an ampersand, and on every line indented by five columns or more. Comment cards vanish;
inline comments are kept apart from the text, with the line they stand on.
-/

namespace TransportDeck

structure PhysicalLine where
  number : Nat
  text : List Char
  deriving DecidableEq, Repr

def PhysicalLine.isBlank (line : PhysicalLine) : Bool :=
  Text.isBlankText line.text

structure ContentLine where
  number : Nat
  /-- The card text without its ampersand and without blanks around it. -/
  body : List Char
  /-- Whether the text ended in an ampersand. -/
  continued : Bool
  /-- Whether the line stands far enough to the right to continue a card. -/
  indented : Bool
  comment : Option String
  deriving DecidableEq, Repr

inductive CardLine
  /-- An inline comment on a line of its own. -/
  | remark (number : Nat) (comment : String)
  | content (line : ContentLine)
  deriving DecidableEq, Repr

def continuationIndent : Nat := 5

def splitAmpersand (content : List Char) : List Char × Bool :=
  if content.getLast? = some '&' then (content.dropLast, true) else (content, false)

def PhysicalLine.cardLine? (line : PhysicalLine) : Option CardLine :=
  if Text.isComment line.text then none
  else
    let (content, comment) := Text.splitComment line.text
    let comment := comment.map fun c => String.ofList (Text.trim c)
    if Text.isBlankText content then comment.map (.remark line.number)
    else
      let (body, continued) := splitAmpersand (Text.trimEnd content)
      let indented := continuationIndent ≤ Text.indentWidth line.text
      some (.content ⟨line.number, Text.trim body, continued, indented, comment⟩)

structure LogicalCard where
  text : String
  span : Span
  /-- The inline comments with the lines they stand on. -/
  comments : List (Nat × String)
  deriving DecidableEq, Repr

namespace LogicalCard

def lineComments (line : ContentLine) : List (Nat × String) :=
  line.comment.toList.map fun c => (line.number, c)

def ofLine (line : ContentLine) : LogicalCard :=
  ⟨String.ofList line.body, .line line.number, lineComments line⟩

/-- Card text with a further body, after a space where both hold something. -/
def appendBody (text : String) (body : List Char) : String :=
  if body.isEmpty then text
  else if text.isEmpty then String.ofList body
  else text ++ " " ++ String.ofList body

def extend (card : LogicalCard) (line : ContentLine) : LogicalCard :=
  ⟨appendBody card.text line.body, card.span.extendTo line.number,
    card.comments ++ lineComments line⟩

def addRemark (card : LogicalCard) (number : Nat) (comment : String) : LogicalCard :=
  { card with comments := card.comments ++ [(number, comment)] }

/-- The cards of some lines after an open card, whose last content line ended in an ampersand if
`continued`. -/
def gather (card : LogicalCard) (continued : Bool) : List CardLine → List LogicalCard
  | [] => [card]
  | .remark number comment :: rest => gather (card.addRemark number comment) continued rest
  | .content line :: rest =>
    if continued || line.indented then gather (card.extend line) line.continued rest
    else card :: gather (ofLine line) line.continued rest

/-- The cards of some lines. Remarks before the first card belong to none. -/
def ofCardLines : List CardLine → List LogicalCard
  | [] => []
  | .remark .. :: rest => ofCardLines rest
  | .content line :: rest => gather (ofLine line) line.continued rest

def ofLines (lines : List PhysicalLine) : List LogicalCard :=
  ofCardLines (lines.filterMap PhysicalLine.cardLine?)

end LogicalCard

end TransportDeck
