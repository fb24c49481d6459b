import TransportDeck.CardFault
import TransportDeck.Fill
import TransportDeck.Reference

/-!
Findings of an analysis. A finding says what is the case, with the numbers it rests on; its code,
its wording and the numbers shown to other tools follow from that.
-/

namespace TransportDeck

open Number

inductive RecordKind
  | cell
  | surface
  | material
  | transform
  | tally
  deriving DecidableEq, Repr

def RecordKind.name : RecordKind → String
  | cell => "cell"
  | surface => "surface"
  | material => "material"
  | transform => "transform"
  | tally => "tally"

inductive RotationPlace
  | card (transform : Nat)
  | cellTransform (cell : Nat)
  | cellFill (cell : Nat)
  deriving DecidableEq, Repr

namespace RotationPlace

def describe : RotationPlace → String
  | card transform => s!"transform {transform}"
  | cellTransform cell => s!"cell {cell}: trcl transform"
  | cellFill cell => s!"cell {cell}: fill transform"

/-- The number of the transform card, zero for a transformation written on a cell. -/
def number : RotationPlace → Nat
  | card transform => transform
  | _ => 0

end RotationPlace

structure EntityCounts where
  cells : Nat
  surfaces : Nat
  materials : Nat
  transforms : Nat
  tallies : Nat
  universes : Nat
  deriving DecidableEq, Repr

def EntityCounts.values (c : EntityCounts) : List (String × Nat) :=
  [("cells", c.cells), ("surfaces", c.surfaces), ("materials", c.materials),
    ("transforms", c.transforms), ("tallies", c.tallies), ("universes", c.universes)]

inductive Finding
  /-- Something is wrong with a card on its own. -/
  | issue (i : CardIssue)
  | duplicate (kind : RecordKind) (number : Nat) (first : Span)
  | likeMissing (cell base : Nat)
  | likeLoop (cell : Nat) (chain : List Nat)
  | unknownCard (mnemonic : String)
  | mixedFractions (material atom mass : Nat)
  /-- The target of a reference does not exist. -/
  | undefined (r : Reference)
  | importanceCount (card : String) (expected actual : Nat)
  | unusedSurface (number : Nat)
  | unusedMaterial (number : Nat)
  | unusedTransform (number : Nat)
  | unusedUniverse (number : Nat)
  | latticeKind (cell : Nat) (kind : Int)
  | latticeSurfaces (cell : Nat) (kind : Int) (expected actual : Nat)
  | fillWidths (cell : Nat) (ranges : List IndexRange) (actual : Nat)
  | fillUncountable (cell : Nat) (ranges : List IndexRange) (actual : Nat)
  | fillCount (cell : Nat) (ranges : List IndexRange) (expected actual : Nat)
  | badVolume (cell : Nat) (value : Float)
  | coefficientCount (surface : Nat) (mnemonic : String) (expected : List Nat) (actual : Nat)
  | determinant (place : RotationPlace) (value : Float)
  | notOrthonormal (place : RotationPlace)
  | reflection (place : RotationPlace)
  /-- Universes that contain each other along a closed path, which a cell closes by its fill. -/
  | cycle (path : List Nat) (cell filled : Nat)
  | unreachable (number cell : Nat)
  | deepNesting (depth limit : Nat)
  | maxDepth (depth : Nat)
  | entityCounts (counts : EntityCounts)

def describePath (path : List Nat) : String :=
  " → ".intercalate (path.map toString)

namespace Finding

def describeRanges (ranges : List IndexRange) : String :=
  " ".intercalate (ranges.map fun r => s!"{r.low}:{r.high}")

def code : Finding → Code
  | issue i => i.fault.code
  | duplicate .. => .duplicateEntityNumber
  | likeMissing .. | likeLoop .. => .undefinedCell
  | unknownCard _ => .unknownDataCard
  | mixedFractions .. => .materialMixedFractions
  | undefined r => r.code
  | importanceCount .. => .parseTokenCount
  | unusedSurface _ => .unusedSurface
  | unusedMaterial _ => .unusedMaterial
  | unusedTransform _ => .unusedTransform
  | unusedUniverse _ => .unusedUniverse
  | latticeKind .. => .latticeKind
  | latticeSurfaces .. => .latticeSurfaceCount
  | fillWidths .. | fillUncountable .. | fillCount .. => .fillArrayCardinality
  | badVolume .. => .badVolume
  | coefficientCount .. => .surfaceCoeffCount
  | determinant .. => .transformInvalid
  | notOrthonormal _ => .transformNotOrthonormal
  | reflection _ => .transformReflection
  | cycle .. => .circularUniverse
  | unreachable .. => .universeUnreachable
  | deepNesting .. => .deepNesting
  | maxDepth _ => .maxDepth
  | entityCounts _ => .entityCounts

def message : Finding → String
  | issue i => i.message
  | duplicate kind number first => s!"{kind.name} {number} is already defined on {first.describe}"
  | likeMissing cell base => s!"cell {cell}: LIKE refers to undefined cell {base}"
  | likeLoop cell chain =>
    let numbers := " -> ".intercalate (chain.map toString)
    s!"cell {cell}: LIKE chain never reaches a full definition ({numbers})"
  | unknownCard mnemonic => s!"unknown data card '{mnemonic}' kept as raw text"
  | mixedFractions material atom mass =>
    s!"material {material}: mixes {atom} atom and {mass} mass fractions"
  | undefined r => r.message
  | importanceCount card expected actual =>
    s!"{card}: {actual} entries given for {expected} cells"
  | unusedSurface number => s!"surface {number} is never used"
  | unusedMaterial number => s!"material {number} is not used by any cell"
  | unusedTransform number => s!"transform {number} is never used"
  | unusedUniverse number => s!"universe {number} is never filled into another cell"
  | latticeKind cell kind => s!"cell {cell}: lattice type {kind} is not 1 or 2"
  | latticeSurfaces cell kind expected actual =>
    s!"cell {cell}: lat={kind} needs {expected} bounding surfaces, found {actual}"
  | fillWidths cell ranges _ =>
    s!"cell {cell}: fill array ranges {describeRanges ranges} must all have positive widths"
  | fillUncountable cell ranges _ =>
    s!"cell {cell}: fill array ranges {describeRanges ranges} declare too many values to count"
  | fillCount cell ranges expected actual =>
    let widths := "×".intercalate (ranges.map fun r => toString r.width)
    let diff := (actual : Int) - expected
    s!"cell {cell}: fill array declares {widths} = {expected} values, found {actual} (diff {diff})"
  | badVolume cell value =>
    s!"cell {cell}: volume must be positive, found {scientific 5 2 value}"
  | coefficientCount surface mnemonic expected actual =>
    let counts := " or ".intercalate (expected.map toString)
    s!"surface {surface}: '{mnemonic}' takes {counts} coefficients, found {actual}"
  | determinant place value =>
    s!"{place.describe}: rotation determinant {scientific 5 2 value} is not ±1"
  | notOrthonormal place => s!"{place.describe}: rotation rows are not orthonormal"
  | reflection place => s!"{place.describe}: rotation has determinant -1 and is a reflection"
  | cycle path cell _ => s!"universe cycle {describePath path} closed by the fill on cell {cell}"
  | unreachable number cell =>
    s!"universe {number} is filled by cell {cell} but is not reachable from universe 0"
  | deepNesting depth limit => s!"universe nesting depth {depth} exceeds the limit of {limit}"
  | maxDepth depth => s!"maximum universe nesting depth is {depth}"
  | entityCounts counts => ", ".intercalate (counts.values.map fun e => s!"{e.2} {e.1}")

def values : Finding → List (String × Int)
  | duplicate kind number _ => [(kind.name, number)]
  | likeMissing _ base => [("cell", base)]
  | likeLoop cell _ => [("cell", cell)]
  | mixedFractions material .. => [("material", material)]
  | undefined r => r.values
  | importanceCount _ expected actual => [("expected", expected), ("actual", actual)]
  | unusedSurface number => [("surface", number)]
  | unusedMaterial number => [("material", number)]
  | unusedTransform number => [("transform", number)]
  | unusedUniverse number => [("universe", number)]
  | latticeKind cell kind => [("cell", cell), ("kind", kind)]
  | latticeSurfaces cell kind expected actual =>
    [("cell", cell), ("kind", kind), ("expected", expected), ("actual", actual)]
  | fillWidths cell _ actual | fillUncountable cell _ actual =>
    [("cell", cell), ("actual", actual)]
  | fillCount cell _ expected actual =>
    [("cell", cell), ("expected", expected), ("actual", actual),
      ("diff", (actual : Int) - expected)]
  | badVolume cell _ => [("cell", cell)]
  | coefficientCount surface _ expected actual =>
    [("surface", surface), ("expected", expected.headD 0), ("actual", actual)]
  | determinant place _ | notOrthonormal place | reflection place =>
    [("transform", place.number)]
  | cycle _ cell filled => [("cell", cell), ("universe", filled)]
  | unreachable number _ => [("universe", number)]
  | deepNesting depth limit => [("max_depth", depth), ("limit", limit)]
  | maxDepth depth => [("max_depth", depth)]
  | entityCounts counts => counts.values.map fun e => (e.1, (e.2 : Int))
  | issue _ | unknownCard _ => []

def report (f : Finding) (span : Option Span) : Diagnostic :=
  { code := f.code, span, message := f.message, data := .ofList f.values }

end Finding

end TransportDeck
