import TransportDeck.Deck
import TransportDeck.Diagnostic
import TransportDeck.Number.Notation

namespace TransportDeck

inductive TargetKind
  | cell
  | surface
  | material
  | transform
  | universe
  deriving DecidableEq, Repr

structure Target where
  kind : TargetKind
  number : Nat
  deriving DecidableEq, Repr

inductive Reference
  | regionSurface (cell surface : Nat)
  | complement (cell other : Nat)
  | cellMaterial (cell material : Nat)
  | cellTransform (cell transform : Nat)
  | fillUniverse (cell filled : Nat)
  | fillTransform (cell transform : Nat)
  | surfaceTransform (surface transform : Nat)
  | periodicPartner (surface partner : Nat)
  | thermalMaterial (material : Nat)
  | tallyCell (tally cell : Nat)
  | tallySurface (tally surface : Nat)
  | sourceCell (cell : Nat)
  | sourceSurface (surface : Nat)
  | sourceTransform (transform : Nat)
  deriving DecidableEq, Repr

namespace Reference

def target : Reference → Target
  | regionSurface _ s | periodicPartner _ s | tallySurface _ s | sourceSurface s => ⟨.surface, s⟩
  | complement _ c | tallyCell _ c | sourceCell c => ⟨.cell, c⟩
  | cellMaterial _ m | thermalMaterial m => ⟨.material, m⟩
  | cellTransform _ t | fillTransform _ t | surfaceTransform _ t | sourceTransform t =>
    ⟨.transform, t⟩
  | fillUniverse _ u => ⟨.universe, u⟩

def code : Reference → Code
  | regionSurface .. | periodicPartner .. | sourceSurface _ => .undefinedSurface
  | complement .. | sourceCell _ => .undefinedCell
  | cellMaterial .. | thermalMaterial _ => .undefinedMaterial
  | cellTransform .. | fillTransform .. | surfaceTransform .. | sourceTransform _ =>
    .undefinedTransform
  | fillUniverse .. => .undefinedUniverse
  | tallyCell .. | tallySurface .. => .undefinedTallyEntity

def message : Reference → String
  | regionSurface c s => s!"cell {c}: surface {s} is not defined"
  | complement c other => s!"cell {c}: complement #{other} refers to an undefined cell"
  | cellMaterial c m => s!"cell {c}: material {m} is not defined"
  | cellTransform c t => s!"cell {c}: trcl: transform {t} is not defined"
  | fillUniverse c u => s!"cell {c}: fill universe {u} is not defined"
  | fillTransform c t => s!"cell {c}: fill: transform {t} is not defined"
  | surfaceTransform s t => s!"surface {s}: transform {t} is not defined"
  | periodicPartner s p => s!"surface {s}: periodic partner surface {p} is not defined"
  | thermalMaterial m => s!"mt{m}: material {m} is not defined"
  | tallyCell t c => s!"tally {t}: cell {c} is not defined"
  | tallySurface t s => s!"tally {t}: surface {s} is not defined"
  | sourceCell c => s!"sdef: cel={c} is not defined"
  | sourceSurface s => s!"sdef: sur={s} is not defined"
  | sourceTransform t => s!"sdef: transform {t} is not defined"

def values : Reference → List (String × Int)
  | regionSurface c s => [("cell", c), ("surface", s)]
  | complement _ other => [("cell", other)]
  | cellMaterial c m => [("cell", c), ("material", m)]
  | fillUniverse c u => [("cell", c), ("universe", u)]
  | cellTransform _ t | fillTransform _ t | surfaceTransform _ t | sourceTransform t =>
    [("transform", t)]
  | periodicPartner _ p => [("surface", p)]
  | thermalMaterial m => [("material", m)]
  | tallyCell t c => [("tally", t), ("cell", c)]
  | tallySurface t s => [("tally", t), ("surface", s)]
  | sourceCell c => [("cell", c)]
  | sourceSurface s => [("surface", s)]

end Reference

/-- The references of a cell: each surface of its region once, every complement, the material, and
what its parameters name. -/
def Cell.references (c : Cell) : List Reference :=
  let surfaces := c.region.surfaceIds.eraseDups.map (.regionSurface c.number)
  let complements := c.region.complements.map (.complement c.number)
  let material := if c.material = 0 then [] else [.cellMaterial c.number c.material]
  let transform := (c.params.transform.bind (·.reference?)).toList.map (.cellTransform c.number)
  let fill := match c.params.fill with
    | none => []
    | some f => (sortDistinct f.targets).map (.fillUniverse c.number) ++
        (f.transforms.filterMap (·.reference?)).map (.fillTransform c.number)
  surfaces ++ complements ++ material ++ transform ++ fill

def Surface.references (s : Surface) : List Reference :=
  s.transformId?.toList.map (.surfaceTransform s.number) ++
    s.periodicPartner?.toList.map (.periodicPartner s.number)

def TallyRef.reference? (tally : Nat) (bin : TallyRef) : Option Reference :=
  match bin.entity with
  | .cell => some (.tallyCell tally bin.id)
  | .surface => some (.tallySurface tally bin.id)
  | .point => none

def Tally.references (t : Tally) : List Reference :=
  t.bins.eraseDups.filterMap (TallyRef.reference? t.number)

/-- The reference of a source keyword, if its first value is a plain number. -/
def sourceReference? (group : String × List String) : Option Reference :=
  match group.2.head?.bind Number.readUnsigned? with
  | none => none
  | some n =>
    match group.1 with
    | "cel" => some (.sourceCell n)
    | "sur" => if n = 0 then none else some (.sourceSurface n)
    | "tr" => some (.sourceTransform n)
    | _ => none

def DataCard.references (card : DataCard) : List Reference :=
  match card.payload with
  | .thermal t => [.thermalMaterial t.material]
  | .tally t => t.references
  | .source groups => groups.filterMap sourceReference?
  | _ => []

def Deck.references (d : Deck) : List Reference :=
  d.cells.flatMap Cell.references ++ d.surfaces.flatMap Surface.references ++
    d.data.flatMap DataCard.references

end TransportDeck
