import TransportDeck.Span
import TransportDeck.Table

/-!
Diagnostics: what an analysis reports, under a fixed set of codes. The severity belongs to the code,
so that no two reports of one code differ in weight.
-/

namespace TransportDeck

inductive Severity
  /-- The deck could not be read at all. -/
  | fatal
  /-- The deck is invalid. -/
  | error
  /-- The deck may be valid but looks suspicious. -/
  | warning
  /-- A summary. -/
  | info
  deriving DecidableEq, Repr, Inhabited

namespace Severity

def all : List Severity := [fatal, error, warning, info]

def name : Severity → String
  | fatal => "fatal"
  | error => "error"
  | warning => "warning"
  | info => "info"

def isError : Severity → Bool
  | fatal | error => true
  | warning | info => false

end Severity

inductive Code
  | missingTitle | badBlockSeparator | emptyBlock | ioError
  | parseNumber | parseTokenCount | parseMaterialZaid | parseFillArrayCardinality
  | duplicateEntityNumber
  | undefinedSurface | undefinedMaterial | undefinedTransform | undefinedUniverse
  | undefinedTallyEntity | undefinedCell
  | surfaceCoeffCount | latticeKind | latticeSurfaceCount | fillArrayCardinality
  | circularUniverse | badVolume | transformInvalid | materialMixedFractions | tallyKind
  | unusedSurface | unusedMaterial | unusedTransform | unusedUniverse | universeUnreachable
  | deepNesting | transformNotOrthonormal | transformReflection | unknownDataCard
  | maxDepth | entityCounts
  deriving DecidableEq, Repr, Inhabited

namespace Code

def all : List Code :=
  [missingTitle, badBlockSeparator, emptyBlock, ioError, parseNumber, parseTokenCount,
    parseMaterialZaid, parseFillArrayCardinality, duplicateEntityNumber, undefinedSurface,
    undefinedMaterial, undefinedTransform, undefinedUniverse, undefinedTallyEntity, undefinedCell,
    surfaceCoeffCount, latticeKind, latticeSurfaceCount, fillArrayCardinality, circularUniverse,
    badVolume, transformInvalid, materialMixedFractions, tallyKind, unusedSurface, unusedMaterial,
    unusedTransform, unusedUniverse, universeUnreachable, deepNesting, transformNotOrthonormal,
    transformReflection, unknownDataCard, maxDepth, entityCounts]

def severity : Code → Severity
  | missingTitle | badBlockSeparator | emptyBlock | ioError => .fatal
  | unusedSurface | unusedMaterial | unusedTransform | unusedUniverse | universeUnreachable
  | deepNesting | transformNotOrthonormal | transformReflection | unknownDataCard => .warning
  | maxDepth | entityCounts => .info
  | _ => .error

def name : Code → String
  | missingTitle => "MISSING_TITLE"
  | badBlockSeparator => "BAD_BLOCK_SEPARATOR"
  | emptyBlock => "EMPTY_BLOCK"
  | ioError => "IO_ERROR"
  | parseNumber => "PARSE_NUMBER"
  | parseTokenCount => "PARSE_TOKEN_COUNT"
  | parseMaterialZaid => "PARSE_MATERIAL_ZAID"
  | parseFillArrayCardinality => "PARSE_FILL_ARRAY_CARDINALITY"
  | duplicateEntityNumber => "DUPLICATE_ENTITY_NUMBER"
  | undefinedSurface => "UNDEFINED_SURFACE"
  | undefinedMaterial => "UNDEFINED_MATERIAL"
  | undefinedTransform => "UNDEFINED_TRANSFORM"
  | undefinedUniverse => "UNDEFINED_UNIVERSE"
  | undefinedTallyEntity => "UNDEFINED_TALLY_ENTITY"
  | undefinedCell => "UNDEFINED_CELL"
  | surfaceCoeffCount => "SURFACE_COEFF_COUNT"
  | latticeKind => "LATTICE_KIND"
  | latticeSurfaceCount => "LATTICE_SURFACE_COUNT"
  | fillArrayCardinality => "FILL_ARRAY_CARDINALITY"
  | circularUniverse => "CIRCULAR_UNIVERSE"
  | badVolume => "BAD_VOLUME"
  | transformInvalid => "TRANSFORM_INVALID"
  | materialMixedFractions => "MATERIAL_MIXED_FRACTIONS"
  | tallyKind => "TALLY_KIND"
  | unusedSurface => "UNUSED_SURFACE"
  | unusedMaterial => "UNUSED_MATERIAL"
  | unusedTransform => "UNUSED_TRANSFORM"
  | unusedUniverse => "UNUSED_UNIVERSE"
  | universeUnreachable => "UNIVERSE_UNREACHABLE"
  | deepNesting => "DEEP_NESTING"
  | transformNotOrthonormal => "TRANSFORM_NOT_ORTHONORMAL"
  | transformReflection => "TRANSFORM_REFLECTION"
  | unknownDataCard => "UNKNOWN_DATA_CARD"
  | maxDepth => "MAX_DEPTH"
  | entityCounts => "ENTITY_COUNTS"

def ofName? (s : String) : Option Code :=
  all.find? fun c => c.name == s

end Code

structure Diagnostic where
  code : Code
  span : Option Span
  message : String
  data : Table String Int := .empty
  deriving DecidableEq

namespace Diagnostic

def severity (d : Diagnostic) : Severity :=
  d.code.severity

def isError (d : Diagnostic) : Bool :=
  d.severity.isError

/-- Attaches a named number; an earlier one of the same name gives way. -/
def withValue (d : Diagnostic) (key : String) (value : Int) : Diagnostic :=
  { d with data := d.data.insert key value }

def value? (d : Diagnostic) (key : String) : Option Int :=
  d.data.find? key

def describe (d : Diagnostic) : String :=
  let place := match d.span with
    | some span => " " ++ span.describe
    | none => ""
  s!"{d.severity.name}[{d.code.name}]{place}: {d.message}"

end Diagnostic

end TransportDeck
