import TransportDeck.Cell
import TransportDeck.DataCard
import TransportDeck.Surface

namespace TransportDeck

structure Deck where
  title : String
  messages : List String
  cells : List Cell
  surfaces : List Surface
  data : List DataCard
  deriving DecidableEq

namespace Deck

def materials (d : Deck) : List Material := d.data.filterMap DataCard.material?

def thermals (d : Deck) : List Thermal := d.data.filterMap DataCard.thermal?

def transforms (d : Deck) : List Transform := d.data.filterMap DataCard.transform?

def tallies (d : Deck) : List Tally := d.data.filterMap DataCard.tally?

def mode (d : Deck) : Option (List Particle) := d.data.findSome? DataCard.mode?

def cards (d : Deck) (mnemonic : String) : List DataCard :=
  d.data.filter fun card => card.mnemonic == mnemonic

def findCell? (d : Deck) (number : Nat) : Option Cell :=
  d.cells.find? fun c => c.number == number

def findSurface? (d : Deck) (number : Nat) : Option Surface :=
  d.surfaces.find? fun s => s.number == number

def findMaterial? (d : Deck) (number : Nat) : Option Material :=
  d.materials.find? fun m => m.number == number

def findTransform? (d : Deck) (number : Nat) : Option Transform :=
  d.transforms.find? fun t => t.number == number

def findTally? (d : Deck) (number : Nat) : Option Tally :=
  d.tallies.find? fun t => t.number == number

end Deck

end TransportDeck
