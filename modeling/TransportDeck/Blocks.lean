import TransportDeck.Diagnostic
import TransportDeck.LogicalCard

/-!
The layout of a deck: an optional message block, a title, and three blocks of cards. A single blank
line ends each of the first two blocks and any blank lines end the third; what follows is ignored.
-/

namespace TransportDeck

inductive BlockName
  | cells
  | surfaces
  | data
  deriving DecidableEq, Repr, Inhabited

def BlockName.describe : BlockName → String
  | cells => "cell"
  | surfaces => "surface"
  | data => "data"

inductive LayoutFault
  | missingTitle (line : Nat)
  /-- More than one blank line ends a block. -/
  | longSeparator (line run : Nat) (block : BlockName)
  /-- The text ends before the third block can start. -/
  | missingBlocks (line found : Nat)
  /-- A block holds comments only, or nothing at all. -/
  | emptyBlock (line : Nat) (block : BlockName)
  deriving DecidableEq, Repr

namespace LayoutFault

def line : LayoutFault → Nat
  | missingTitle line => line
  | longSeparator line .. => line
  | missingBlocks line _ => line
  | emptyBlock line _ => line

def code : LayoutFault → Code
  | missingTitle _ => .missingTitle
  | longSeparator .. | missingBlocks .. => .badBlockSeparator
  | emptyBlock .. => .emptyBlock

def message : LayoutFault → String
  | missingTitle line => s!"no title card found on line {line}"
  | longSeparator line run block =>
    s!"bad block separator on line {line}: {run} consecutive blank lines after the " ++
      s!"{block.describe} block, expected one"
  | missingBlocks line found =>
    s!"bad block separator on line {line}: deck ends after {found} of 3 blocks"
  | emptyBlock line block => s!"{block.describe} block has no content (line {line})"

def span (fault : LayoutFault) : Span :=
  .line fault.line

def report (fault : LayoutFault) : Diagnostic :=
  { code := fault.code, span := some fault.span, message := fault.message }

end LayoutFault

structure Blocks where
  title : String
  titleLine : Nat
  messages : List String
  cells : List LogicalCard
  surfaces : List LogicalCard
  data : List LogicalCard
  deriving DecidableEq, Repr

namespace Blocks

def messageKeyword : List Char := "message:".toList

def messageText? (line : List Char) : Option (List Char) :=
  let trimmed := Text.trimStart line
  if Text.lower (trimmed.take messageKeyword.length) = messageKeyword then
    some (trimmed.drop messageKeyword.length)
  else none

/-- The number of lines before the title: a message block goes on to the first blank line, which
belongs to it. -/
def messageLength : List (List Char) → Nat
  | [] => 0
  | first :: rest =>
    if (messageText? first).isSome then (rest.takeWhile fun l => !Text.isBlankText l).length + 2
    else 0

def messageTexts : List (List Char) → List String
  | [] => []
  | first :: rest =>
    match messageText? first with
    | none => []
    | some text =>
      let block := text :: rest.takeWhile fun l => !Text.isBlankText l
      (block.filter fun l => !Text.isBlankText l).map fun l => String.ofList (Text.trim l)

def numbered (lines : List (List Char)) : List PhysicalLine :=
  lines.mapIdx fun n text => ⟨n + 1, text⟩

/-- The lines of the block at the front and those after its separator, which must be a single blank
line. The text has `lastLine` lines, and this is its block number `found`. -/
def takeBlock (lastLine found : Nat) (block : BlockName) (lines : List PhysicalLine) :
    Except LayoutFault (List PhysicalLine × List PhysicalLine) :=
  let after := lines.dropWhile fun l => !PhysicalLine.isBlank l
  match after.takeWhile PhysicalLine.isBlank with
  | [] => .error (.missingBlocks lastLine found)
  | [_] => .ok (lines.takeWhile fun l => !PhysicalLine.isBlank l,
      after.dropWhile PhysicalLine.isBlank)
  | first :: rest => .error (.longSeparator (first.number + 1) (rest.length + 1) block)

def blockCards (lastLine : Nat) (block : BlockName) (lines : List PhysicalLine) :
    Except LayoutFault (List LogicalCard) :=
  let cards := LogicalCard.ofLines lines
  if cards.isEmpty then
    .error (.emptyBlock ((lines.head?.map PhysicalLine.number).getD lastLine) block)
  else .ok cards

def ofLines (lines : List (List Char)) : Except LayoutFault Blocks :=
  let start := messageLength lines
  match lines[start]? with
  | none => .error (.missingTitle (start + 1))
  | some title =>
    if Text.isBlankText title then .error (.missingTitle (start + 1))
    else do
      let lastLine := max lines.length 1
      let (cells, rest) ← takeBlock lastLine 1 .cells ((numbered lines).drop (start + 1))
      let (surfaces, rest) ← takeBlock lastLine 2 .surfaces rest
      let data := rest.takeWhile fun l => !PhysicalLine.isBlank l
      return {
        title := String.ofList (Text.trim title)
        titleLine := start + 1
        messages := messageTexts lines
        cells := ← blockCards lastLine .cells cells
        surfaces := ← blockCards lastLine .surfaces surfaces
        data := ← blockCards lastLine .data data }

def ofText (text : String) : Except LayoutFault Blocks :=
  ofLines (Text.lines text.toList)

end Blocks

end TransportDeck
