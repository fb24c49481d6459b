/-!
Regions of cells. An expression is not evaluated: its text is kept in normal form, with the surface
terms and cell complements it mentions in the order written.
-/

namespace TransportDeck

inductive Sense
  | negative
  | positive
  deriving DecidableEq, Repr, Inhabited

def Sense.describe : Sense → String
  | negative => "-"
  | positive => "+"

structure SurfaceRef where
  id : Nat
  sense : Sense
  facet : Option Nat
  deriving DecidableEq, Repr

def SurfaceRef.describe (r : SurfaceRef) : String :=
  let sign := if r.sense = .negative then "-" else ""
  let facet := match r.facet with
    | some n => s!".{n}"
    | none => ""
  s!"{sign}{r.id}{facet}"

structure Region where
  text : String
  surfaces : List SurfaceRef
  complements : List Nat
  deriving DecidableEq, Repr

namespace Region

def nothing : Region := ⟨"", [], []⟩

instance : Inhabited Region := ⟨nothing⟩

def isEmpty (r : Region) : Bool :=
  r.surfaces.isEmpty && r.complements.isEmpty

def surfaceIds (r : Region) : List Nat :=
  r.surfaces.map (·.id)

end Region

end TransportDeck
