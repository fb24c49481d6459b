import TransportDeck.CardFault
import TransportDeck.Number.Notation
import TransportDeck.Region
import TransportDeck.Text.Blank

namespace TransportDeck.Card

open Number

def maxFacet : Nat := 255

def scanFacet (cs : List Char) : Option Nat × List Char :=
  match cs with
  | '.' :: after =>
    match scanNat? maxFacet after with
    | some (n, rest) => (some n, rest)
    | none => (none, cs)
  | _ => (none, cs)

def readSurfaceRef? (word : List Char) : Option SurfaceRef :=
  let (negative, unsigned) := scanSign word
  match scanNat? maxId unsigned with
  | none => none
  | some (id, rest) =>
    match scanFacet rest with
    | (facet, []) =>
      if id = 0 then none else some ⟨id, if negative then .negative else .positive, facet⟩
    | _ => none

inductive RegionTerm
  | surface (ref : SurfaceRef)
  | complement (cell : Nat)
  /-- A number sign whose parenthesis follows. -/
  | complementSign
  deriving DecidableEq, Repr

def readRegionTerm (word : List Char) : Except CardFault RegionTerm :=
  match word with
  | ['#'] => .ok .complementSign
  | '#' :: digits =>
    match readId? (String.ofList digits) with
    | some cell => .ok (.complement cell)
    | none => .error (.number (String.ofList digits))
  | _ =>
    match readSurfaceRef? word with
    | some ref => .ok (.surface ref)
    | none => .error (.surfaceTerm (String.ofList word))

def RegionTerm.surface? : RegionTerm → Option SurfaceRef
  | surface ref => some ref
  | _ => none

def RegionTerm.complement? : RegionTerm → Option Nat
  | complement cell => some cell
  | _ => none

def isRegionOperator (c : Char) : Bool :=
  c == '(' || c == ')' || c == ':'

def regionWords (text : List Char) : List (List Char) :=
  Text.words (text.map fun c => if isRegionOperator c then ' ' else c)

def readRegion (text : List Char) : Except CardFault Region := do
  let terms ← (regionWords text).mapM readRegionTerm
  return {
    text := Text.joined " " ((Text.words text).map String.ofList)
    surfaces := terms.filterMap RegionTerm.surface?
    complements := terms.filterMap RegionTerm.complement? }

end TransportDeck.Card
