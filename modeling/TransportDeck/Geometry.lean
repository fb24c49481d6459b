import TransportDeck.Finding

namespace TransportDeck.Geometry

/-- The bounding planes that each lattice type needs: six for boxes, eight for hexagonal prisms. -/
def requiredPlanes : List (Int × Nat) := [(1, 6), (2, 8)]

/-- The bounding planes that a surface term stands for. Only a whole macrobody may stand for more
than one. -/
def termPlanes (d : Deck) (term : SurfaceRef) : Nat :=
  match term.facet, d.findSurface? term.id with
  | none, some surface => surface.kind.latticePlanes
  | _, _ => 1

def boundingPlanes (d : Deck) (r : Region) : Nat :=
  r.surfaces.foldr (fun term rest => termPlanes d term + rest) 0

def checkLattice (d : Deck) (c : Cell) : List Finding :=
  match c.params.lattice with
  | none => []
  | some kind =>
    match requiredPlanes.lookup kind with
    | none => [.latticeKind c.number kind]
    | some expected =>
      let actual := boundingPlanes d c.region
      if actual = expected then [] else [.latticeSurfaces c.number kind expected actual]

def checkFillArray (cell : Nat) (a : FillArray) : List Finding :=
  let actual := a.entries.length
  if a.hasPositiveWidths then
    match a.declaredLength? with
    | none => [.fillUncountable cell a.ranges actual]
    | some expected =>
      if expected = actual then [] else [.fillCount cell a.ranges expected actual]
  else [.fillWidths cell a.ranges actual]

def checkFill (c : Cell) : List Finding :=
  match c.params.fill.bind Fill.array? with
  | some a => checkFillArray c.number a
  | none => []

def checkVolume (c : Cell) : List Finding :=
  match c.params.volume with
  | some v => if 0 < v then [] else [.badVolume c.number v]
  | none => []

/-- A rotation must have a determinant of one or minus one. If it has, its rows must be orthonormal,
and minus one is remarked on as a reflection. -/
def checkMatrix (place : RotationPlace) (m : Matrix3) (tolerance : Float) : List Finding :=
  let det := m.det
  if tolerance < (det.abs - 1).abs then [.determinant place det]
  else
    (if m.isOrthonormal tolerance then [] else [.notOrthonormal place]) ++
      if det < 0 then [.reflection place] else []

def checkRotation (place : RotationPlace) (t : Transform) (tolerance : Float) : List Finding :=
  match t.cosines? with
  | some m => checkMatrix place m tolerance
  | none => []

def cellTransforms (c : Cell) : List (RotationPlace × TransformSpec) :=
  c.params.transform.toList.map (fun spec => (.cellTransform c.number, spec)) ++
    (c.params.fill.toList.flatMap Fill.transforms).map fun spec => (.cellFill c.number, spec)

def checkInlined (c : Cell) (tolerance : Float) : List Finding :=
  (cellTransforms c).flatMap fun (place, spec) =>
    match spec.transform? with
    | some t => checkRotation place t tolerance
    | none => []

def checkCell (d : Deck) (tolerance : Float) (c : Cell) : List Finding :=
  checkLattice d c ++ checkFill c ++ checkVolume c ++ checkInlined c tolerance

def checkSurface (s : Surface) : List Finding :=
  match s.kind.coefficientCounts? with
  | none => []
  | some expected =>
    if expected.contains s.coefficients.length then []
    else [.coefficientCount s.number s.kind.mnemonic expected s.coefficients.length]

def checkCard (tolerance : Float) (card : DataCard) : List Finding :=
  match card.transform? with
  | some t => checkRotation (.card t.number) t tolerance
  | none => []

def reports (d : Deck) (tolerance : Float) : List Diagnostic :=
  d.cells.flatMap (fun c => (checkCell d tolerance c).map (·.report (some c.span))) ++
  d.surfaces.flatMap (fun s => (checkSurface s).map (·.report (some s.span))) ++
  d.data.flatMap fun card => (checkCard tolerance card).map (·.report (some card.span))

end TransportDeck.Geometry
