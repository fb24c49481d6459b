import TransportDeck.Card.Transform
import TransportDeck.Tally
import TransportDeck.Text.Blank

/-!
Reading of tally cards. Bins may be chains of nested levels: the first level refers to what the
tally counts in and every deeper one to cells. Lattice indices in brackets and totals are skipped.
-/

namespace TransportDeck.Card

open Number

/-- Where a token of a bin list stands: inside how many parentheses, at which level of a chain, and
whether inside brackets. -/
structure BinPlace where
  depth : Nat := 0
  level : Nat := 0
  bracketed : Bool := false
  deriving DecidableEq, Repr

/-- The place after a closing parenthesis. A chain ends with its outermost parenthesis. -/
def BinPlace.close (p : BinPlace) : BinPlace :=
  { p with depth := p.depth - 1, level := if p.depth ≤ 1 then 0 else p.level }

def isPlainBin (token : String) : Bool :=
  token == "t" || ['u', '='].isPrefixOf token.toList

def levelEntity (entity : Entity) (level : Nat) : Entity :=
  if level = 0 then entity else .cell

def readBins (entity : Entity) (p : BinPlace) : List String → Except CardFault (List TallyRef)
  | [] => .ok []
  | token :: rest =>
    if token = "[" then readBins entity { p with bracketed := true } rest
    else if token = "]" then readBins entity { p with bracketed := false } rest
    else if p.bracketed then readBins entity p rest
    else if token = "(" then readBins entity { p with depth := p.depth + 1 } rest
    else if token = ")" then readBins entity p.close rest
    else if token = "<" then readBins entity { p with level := p.level + 1 } rest
    else if isPlainBin token then readBins entity p rest
    else do
      let id ← readId token
      let bins ← readBins entity p rest
      return ⟨levelEntity entity p.level, id⟩ :: bins

def readTallyBins (entity : Entity) (body : List Char) : Except CardFault (List TallyRef) := do
  let bins ← readBins entity {} (Text.tokens ['(', ')', '<', '[', ']'] body)
  if bins.isEmpty then throw .tallyEmpty
  return bins

def detectors? : List Float → Option (List Detector)
  | [] => some []
  | x :: y :: z :: radius :: rest => (detectors? rest).map (⟨x, y, z, radius⟩ :: ·)
  | _ => none

def readDetectors (body : List Char) : Except CardFault (List Detector) := do
  let values ← ((Text.tokens [] body).filter (· != "nd")).mapM readFloat
  if values.isEmpty then throw (.detectorPoints 0)
  orFault (.detectorPoints values.length) (detectors? values)

def modifierOf : Option Char → Modifier
  | some '*' => .star
  | some '+' => .plus
  | _ => .ordinary

def readTally (number : Nat) (marker : Option Char) (particles : List Particle)
    (body : List Char) : Except CardFault Tally := do
  let kind ← orFault (.tallyType (number % 10)) (TallyKind.ofNumber? number)
  if particles.isEmpty then throw .tallyParticle
  let points ← if kind = .detector then readDetectors body else pure []
  let bins ← if kind = .detector then pure [] else readTallyBins kind.entity body
  return { number, kind, modifier := modifierOf marker, particles, bins, points }

end TransportDeck.Card
