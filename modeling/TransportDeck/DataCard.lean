import TransportDeck.Material
import TransportDeck.Tally
import TransportDeck.Transform

namespace TransportDeck

abbrev KeywordGroups := List (String × List String)

inductive Payload
  | material (m : Material)
  | thermal (t : Thermal)
  | mode (particles : List Particle)
  /-- The number of histories. -/
  | histories (count : Nat)
  /-- Criticality parameters, with defaults left open. -/
  | criticality (values : List (Option Float))
  | sourcePoints (points : List Vec3)
  | source (groups : KeywordGroups)
  | tally (t : Tally)
  | tallyComment (text : String)
  | energyBins (bounds : List Float)
  | timeBins (bounds : List Float)
  | transform (t : Transform)
  /-- One importance for each cell, in the order of the cell cards. -/
  | importance (values : List Float)
  | weightWindow (values : List (Option Float))
  | detectorSpheres (values : List Float)
  | cutoff (values : List (Option Float))
  | burn (groups : KeywordGroups)
  | meshTally (groups : KeywordGroups)
  /-- Any other card, as tokens. -/
  | tokens (ts : List String)
  deriving DecidableEq

def Payload.kind : Payload → String
  | material _ => "material"
  | thermal _ => "thermal"
  | mode _ => "mode"
  | histories _ => "nps"
  | criticality _ => "kcode"
  | sourcePoints _ => "ksrc"
  | source _ => "sdef"
  | tally _ => "tally"
  | tallyComment _ => "tally comment"
  | energyBins _ => "energy bins"
  | timeBins _ => "time bins"
  | transform _ => "transform"
  | importance _ => "importance"
  | weightWindow _ => "weight window"
  | detectorSpheres _ => "dxtran"
  | cutoff _ => "cutoff"
  | burn _ => "burn"
  | meshTally _ => "fmesh"
  | tokens _ => "opaque"

def Payload.place (span : Span) : Payload → Payload
  | material m => material { m with span }
  | thermal t => thermal { t with span }
  | tally t => tally { t with span }
  | transform t => transform { t with span }
  | payload => payload

structure DataCard where
  /-- The name in lower case, without marker, number and particles. -/
  mnemonic : String
  number : Option Nat := none
  /-- A star or a plus sign before the name. -/
  marker : Option Char := none
  particles : List Particle := []
  payload : Payload
  span : Span := .zero
  deriving DecidableEq

namespace DataCard

def name (c : DataCard) : String :=
  let marker := (c.marker.map String.singleton).getD ""
  let number := (c.number.map toString).getD ""
  let designators := c.particles.map fun p => String.singleton p.designator
  let particles := if c.particles.isEmpty then "" else ":" ++ ",".intercalate designators
  marker ++ c.mnemonic ++ number ++ particles

def place (span : Span) (c : DataCard) : DataCard :=
  { c with span, payload := c.payload.place span }

def material? (card : DataCard) : Option Material :=
  match card.payload with
  | .material m => some m
  | _ => none

def thermal? (card : DataCard) : Option Thermal :=
  match card.payload with
  | .thermal t => some t
  | _ => none

def transform? (card : DataCard) : Option Transform :=
  match card.payload with
  | .transform t => some t
  | _ => none

def tally? (card : DataCard) : Option Tally :=
  match card.payload with
  | .tally t => some t
  | _ => none

def mode? (card : DataCard) : Option (List Particle) :=
  match card.payload with
  | .mode particles => some particles
  | _ => none

end DataCard

end TransportDeck
