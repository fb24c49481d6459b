import TransportDeck.Geometry
import TransportDeck.Hierarchy
import TransportDeck.Reading

/-!
Analysis of a whole deck. A deck that cannot be divided into its blocks gives one fatal diagnostic.
Otherwise every phase adds its reports, and these are ordered by severity without disturbing the
order within one severity.
-/

namespace TransportDeck

structure Settings where
  /-- The nesting depth that passes without remark. -/
  maxNesting : Nat := 10
  /-- The tolerance of the checks on rotations. -/
  tolerance : Float := 1e-6
  /-- Whether only errors are kept. -/
  quiet : Bool := false

inductive FileFault
  | missing
  | isDirectory
  | notText
  | other (description : String)
  deriving DecidableEq, Repr

def FileFault.describe : FileFault → String
  | missing => "No such file or directory (os error 2)"
  | isDirectory => "Is a directory (os error 21)"
  | notText => "stream did not contain valid UTF-8"
  | other description => description

inductive DeckFault
  | file (fault : FileFault)
  | layout (fault : LayoutFault)
  deriving DecidableEq, Repr

namespace DeckFault

def code : DeckFault → Code
  | file _ => .ioError
  | layout fault => fault.code

def span? : DeckFault → Option Span
  | file _ => none
  | layout fault => some fault.span

def message : DeckFault → String
  | file _ => "failed input/output stream"
  | layout fault => fault.message

def report : DeckFault → Diagnostic
  | file fault =>
    { code := .ioError, span := none, message := s!"failed to read deck: {fault.describe}" }
  | layout fault => fault.report

end DeckFault

structure Model where
  deck : Deck
  hierarchy : Hierarchy
  crossRefs : CrossRefs

namespace Model

def ofDeck (d : Deck) : Model := ⟨d, .ofDeck d, .ofDeck d⟩

def entityCounts (m : Model) : EntityCounts where
  cells := m.crossRefs.cells.size
  surfaces := m.crossRefs.surfaces.size
  materials := m.crossRefs.materials.size
  transforms := m.crossRefs.transforms.size
  tallies := m.crossRefs.tallies.size
  universes := m.hierarchy.universes.length

def summary (m : Model) : List Diagnostic :=
  [(Finding.maxDepth m.hierarchy.maxDepth).report none,
    (Finding.entityCounts m.entityCounts).report none]

end Model

structure Analysis where
  /-- The model, unless the deck could not be read. -/
  model : Option Model
  diagnostics : List Diagnostic
  /-- What was noticed while reading, apart from the diagnostics. -/
  notices : List String

namespace Analysis

def bySeverity (ds : List Diagnostic) : List Diagnostic :=
  Severity.all.flatMap fun severity => ds.filter fun d => d.severity = severity

def phases (settings : Settings) (reading : Reading) (model : Model) : List Diagnostic :=
  reading.reports ++ model.crossRefs.reports reading.deck ++
    Geometry.reports reading.deck settings.tolerance ++
    Hierarchy.reports reading.deck settings.maxNesting ++ model.summary

def kept (settings : Settings) (ds : List Diagnostic) : List Diagnostic :=
  if settings.quiet then ds.filter Diagnostic.isError else ds

def ofFault (fault : DeckFault) : Analysis := ⟨none, [fault.report], []⟩

def ofReading (settings : Settings) (reading : Reading) : Analysis :=
  let model := Model.ofDeck reading.deck
  { model := some model
    diagnostics := kept settings (bySeverity (phases settings reading model))
    notices := reading.notices }

def ofText (settings : Settings) (text : String) : Analysis :=
  match Blocks.ofText text with
  | .error fault => ofFault (.layout fault)
  | .ok blocks => ofReading settings (.ofBlocks blocks)

def decode : Except FileFault ByteArray → Except FileFault String
  | .error fault => .error fault
  | .ok bytes =>
    match String.fromUTF8? bytes with
    | some text => .ok text
    | none => .error .notText

def ofFile (settings : Settings) (content : Except FileFault ByteArray) : Analysis :=
  match decode content with
  | .error fault => ofFault (.file fault)
  | .ok text => ofText settings text

def errors (a : Analysis) : List Diagnostic := a.diagnostics.filter Diagnostic.isError

def warnings (a : Analysis) : List Diagnostic :=
  a.diagnostics.filter fun d => d.severity = .warning

def withCode (a : Analysis) (code : Code) : List Diagnostic :=
  a.diagnostics.filter fun d => d.code = code

def hasErrors (a : Analysis) : Bool := a.diagnostics.any Diagnostic.isError

def isFatal (a : Analysis) : Bool := a.diagnostics.any fun d => d.severity = .fatal

def exitCode (a : Analysis) : Nat := if a.hasErrors then 1 else 0

def processCode (a : Analysis) : Nat :=
  if a.isFatal then 2 else if a.hasErrors then 1 else 0

end Analysis

def Reading.ofText (text : String) : Except DeckFault Reading :=
  match Blocks.ofText text with
  | .error fault => .error (.layout fault)
  | .ok blocks => .ok (.ofBlocks blocks)

def Reading.ofFile (content : Except FileFault ByteArray) : Except DeckFault Reading :=
  match Analysis.decode content with
  | .error fault => .error (.file fault)
  | .ok text => Reading.ofText text

def Reading.log (r : Reading) : List String :=
  r.notices ++ r.reports.map Diagnostic.describe

end TransportDeck
