import TransportDeck.Finding

namespace TransportDeck

/-- The universes that a cell places, one for each placement. A lattice element may hold the
lattice itself, which places nothing. -/
def Cell.placements (c : Cell) : List Nat :=
  match c.params.fill with
  | none => []
  | some (.simple u _) => [u.natAbs]
  | some (.array a) => (Fill.array a).targets.filter (· != c.universeId)

structure CrossRefs where
  cells : Table Nat Span
  surfaces : Table Nat Span
  materials : Table Nat Span
  transforms : Table Nat Span
  tallies : Table Nat Span
  /-- The cells of each universe. Universe zero always exists. -/
  universes : Table Nat (List Nat)
  /-- The cells whose region mentions each surface. -/
  surfaceUsers : Table Nat (List Nat)
  /-- The cells made of each material. -/
  materialUsers : Table Nat (List Nat)
  unusedSurfaces : List Nat
  unusedMaterials : List Nat
  unusedTransforms : List Nat
  /-- The universes, other than zero, that no cell is filled with. -/
  unusedUniverses : List Nat
  deriving DecidableEq

namespace CrossRefs

def cellsWhere (d : Deck) (p : Cell → Bool) : List Nat :=
  (d.cells.filter p).map (·.number)

def universesOf (d : Deck) : Table Nat (List Nat) :=
  tabulate (0 :: d.cells.map (·.universeId)) fun u => cellsWhere d (·.universeId == u)

def surfaceUsersOf (d : Deck) : Table Nat (List Nat) :=
  tabulate (d.cells.flatMap fun c => c.region.surfaceIds) fun s =>
    cellsWhere d fun c => c.region.surfaceIds.contains s

def materialUsersOf (d : Deck) : Table Nat (List Nat) :=
  tabulate ((d.cells.map (·.material)).filter (· != 0)) fun m => cellsWhere d (·.material == m)

def referenced (d : Deck) (kind : TargetKind) : List Nat :=
  sortDistinct (((d.references.map Reference.target).filter (·.kind == kind)).map (·.number))

def filled (d : Deck) : List Nat :=
  sortDistinct (d.cells.flatMap Cell.placements)

def unused (defined : Table Nat Span) (used : List Nat) : List Nat :=
  defined.keys.filter fun n => !used.contains n

/-- The cross references of a deck. A thermal table does not count as a use of its material. -/
def ofDeck (d : Deck) : CrossRefs :=
  let surfaces : Table Nat Span := .ofList (d.surfaces.map fun s => (s.number, s.span))
  let materials : Table Nat Span := .ofList (d.materials.map fun m => (m.number, m.span))
  let transforms : Table Nat Span := .ofList (d.transforms.map fun t => (t.number, t.span))
  let universes := universesOf d
  let materialUsers := materialUsersOf d
  let filled := filled d
  { cells := .ofList (d.cells.map fun c => (c.number, c.span))
    surfaces
    materials
    transforms
    tallies := .ofList (d.tallies.map fun t => (t.number, t.span))
    universes
    surfaceUsers := surfaceUsersOf d
    materialUsers
    unusedSurfaces := unused surfaces (referenced d .surface)
    unusedMaterials := unused materials materialUsers.keys
    unusedTransforms := unused transforms (referenced d .transform)
    unusedUniverses := universes.keys.filter fun u => u != 0 && !filled.contains u }

def hasUniverse (refs : CrossRefs) (u : Nat) : Bool :=
  u == 0 || refs.universes.contains u

def defines (refs : CrossRefs) (target : Target) : Bool :=
  match target.kind with
  | .cell => refs.cells.contains target.number
  | .surface => refs.surfaces.contains target.number
  | .material => refs.materials.contains target.number
  | .transform => refs.transforms.contains target.number
  | .universe => refs.hasUniverse target.number

def dangling (refs : CrossRefs) (span : Span) (references : List Reference) : List Diagnostic :=
  (references.filter fun r => !refs.defines r.target).map fun r =>
    (Finding.undefined r).report (some span)

def checkImportance (d : Deck) (card : DataCard) : List Diagnostic :=
  match card.payload with
  | .importance values =>
    if values.length = d.cells.length then []
    else [(Finding.importanceCount card.name d.cells.length values.length).report (some card.span)]
  | _ => []

def universeSpan (refs : CrossRefs) (u : Nat) : Option Span :=
  ((refs.universes.find? u).bind List.head?).bind refs.cells.find?

def unusedReports (refs : CrossRefs) : List Diagnostic :=
  refs.unusedSurfaces.map (fun s => (Finding.unusedSurface s).report (refs.surfaces.find? s)) ++
  refs.unusedMaterials.map (fun m => (Finding.unusedMaterial m).report (refs.materials.find? m)) ++
  refs.unusedTransforms.map
    (fun t => (Finding.unusedTransform t).report (refs.transforms.find? t)) ++
  refs.unusedUniverses.map (fun u => (Finding.unusedUniverse u).report (refs.universeSpan u))

def reports (refs : CrossRefs) (d : Deck) : List Diagnostic :=
  d.cells.flatMap (fun c => refs.dangling c.span c.references) ++
  d.surfaces.flatMap (fun s => refs.dangling s.span s.references) ++
  d.data.flatMap (fun card =>
    refs.dangling card.span card.references ++ checkImportance d card) ++
  refs.unusedReports

end CrossRefs

end TransportDeck
