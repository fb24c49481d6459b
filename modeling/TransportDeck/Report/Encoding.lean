import TransportDeck.Analysis
import TransportDeck.Report.Json

namespace TransportDeck

open Json (ofOption nat list tagged)

def Span.toJson (s : Span) : Json := .obj [("start", nat s.first), ("end", nat s.last)]

def Table.toJson {κ α : Type} [LT κ] (key : κ → String) (value : α → Json) (t : Table κ α) : Json :=
  .obj (t.entries.map fun e => (key e.1, value e.2))

def numbersJson {α : Type} (value : α → Json) (t : Table Nat α) : Json :=
  t.toJson toString value

def Diagnostic.toJson (d : Diagnostic) : Json :=
  .obj ([("severity", .str d.severity.name), ("code", .str d.code.name),
    ("message", .str d.message), ("source_span", ofOption Span.toJson d.span)] ++
    if d.data.isEmpty then [] else [("data", d.data.toJson id .int)])

def Particle.toJson (p : Particle) : Json := .str p.name

def Vec3.toJson (v : Vec3) : Json := list .float v.toList

def Matrix3.toJson (m : Matrix3) : Json := list .float m.toList

def Transform.toJson (t : Transform) : Json :=
  .obj [("number", nat t.number), ("translation", t.displacement.toJson),
    ("rotation", ofOption Matrix3.toJson t.rotation), ("degrees", .bool t.degrees),
    ("origin", .int t.origin), ("span", t.span.toJson)]

def TransformSpec.toJson : TransformSpec → Json
  | reference n => tagged "Reference" (nat n)
  | inlined values degrees =>
    tagged "Inline" (.obj [("values", list .float values), ("degrees", .bool degrees)])

def Sense.toJson : Sense → Json
  | negative => .str "Negative"
  | positive => .str "Positive"

def SurfaceRef.toJson (r : SurfaceRef) : Json :=
  .obj [("id", nat r.id), ("sense", r.sense.toJson), ("facet", ofOption nat r.facet)]

def Region.toJson (r : Region) : Json :=
  .obj [("text", .str r.text), ("surfaces", list SurfaceRef.toJson r.surfaces),
    ("complements", list nat r.complements)]

def IndexRange.toJson (r : IndexRange) : Json := .arr [.int r.low, .int r.high]

def FillEntry.toJson (e : FillEntry) : Json :=
  .obj [("universe", .int e.signedUniverse), ("transform", ofOption TransformSpec.toJson e.transform)]

def FillArray.toJson (a : FillArray) : Json :=
  .obj [("ranges", list IndexRange.toJson a.ranges), ("entries", list FillEntry.toJson a.entries)]

def Fill.toJson : Fill → Json
  | simple u transform =>
    tagged "Simple" (.obj [("universe", .int u), ("transform", ofOption TransformSpec.toJson transform)])
  | array a => tagged "Array" a.toJson

def stringsJson (texts : List String) : Json := list .str texts

def groupsJson (groups : KeywordGroups) : Json :=
  list (fun g => .arr [.str g.1, stringsJson g.2]) groups

def CellParams.toJson (p : CellParams) : Json :=
  .obj [("importance", p.importance.toJson Particle.name .float),
    ("universe", ofOption .int p.signedUniverse), ("fill", ofOption Fill.toJson p.fill),
    ("lattice", ofOption .int p.lattice), ("transform", ofOption TransformSpec.toJson p.transform),
    ("volume", ofOption .float p.volume), ("temperature", ofOption .float p.temperature),
    ("other", groupsJson p.other)]

def Cell.toJson (c : Cell) : Json :=
  .obj [("number", nat c.number), ("material", nat c.material),
    ("density", ofOption .float c.density), ("region", c.region.toJson),
    ("params", c.params.toJson), ("like", ofOption nat c.like), ("span", c.span.toJson)]

def Density.toJson : Density → Json
  | atomic value => tagged "Atomic" (.float value)
  | mass value => tagged "Mass" (.float value)

def Boundary.toJson : Boundary → Json
  | ordinary => .str "None"
  | reflecting => .str "Reflecting"
  | white => .str "White"

def SurfaceKind.toJson : SurfaceKind → Json
  | known shape => .str shape.name
  | unknown mnemonic => tagged "Other" (.str mnemonic)

def Surface.toJson (s : Surface) : Json :=
  .obj [("number", nat s.number), ("boundary", s.boundary.toJson),
    ("transform", ofOption .int s.transform), ("kind", s.kind.toJson),
    ("coefficients", list .float s.coefficients), ("span", s.span.toJson)]

def Zaid.toJson (zaid : Zaid) : Json :=
  .obj [("z", nat zaid.z), ("a", nat zaid.a), ("library", ofOption .str zaid.library)]

def FractionKind.toJson : FractionKind → Json
  | atom => .str "Atom"
  | mass => .str "Mass"

def Component.toJson (c : Component) : Json :=
  .obj [("zaid", c.zaid.toJson), ("fraction", .float c.fraction)]

def Material.toJson (m : Material) : Json :=
  .obj [("number", nat m.number), ("components", list Component.toJson m.components),
    ("options", list (fun o => .arr [.str o.1, .str o.2]) m.options), ("span", m.span.toJson)]

def Thermal.toJson (t : Thermal) : Json :=
  .obj [("material", nat t.material), ("tables", stringsJson t.tables), ("span", t.span.toJson)]

def Entity.toJson : Entity → Json
  | cell => .str "Cell"
  | surface => .str "Surface"
  | point => .str "Point"

def TallyKind.toJson : TallyKind → Json
  | surfaceCurrent => .str "SurfaceCurrent"
  | surfaceFlux => .str "SurfaceFlux"
  | cellFlux => .str "CellFlux"
  | detector => .str "Detector"
  | energyDeposition => .str "EnergyDeposition"
  | fissionDeposition => .str "FissionDeposition"
  | pulseHeight => .str "PulseHeight"

def Modifier.toJson : Modifier → Json
  | ordinary => .str "None"
  | star => .str "Star"
  | plus => .str "Plus"

def TallyRef.toJson (r : TallyRef) : Json :=
  .obj [("entity", r.entity.toJson), ("id", nat r.id)]

def Detector.toJson (d : Detector) : Json := list .float [d.x, d.y, d.z, d.radius]

def Tally.toJson (t : Tally) : Json :=
  .obj [("number", nat t.number), ("kind", t.kind.toJson), ("modifier", t.modifier.toJson),
    ("particles", list Particle.toJson t.particles), ("bins", list TallyRef.toJson t.bins),
    ("points", list Detector.toJson t.points), ("span", t.span.toJson)]

def openNumbersJson (values : List (Option Float)) : Json := list (ofOption .float) values

def Payload.toJson : Payload → Json
  | material m => tagged "Material" m.toJson
  | thermal t => tagged "Thermal" t.toJson
  | mode particles => tagged "Mode" (list Particle.toJson particles)
  | histories count => tagged "Nps" (nat count)
  | criticality values => tagged "Kcode" (openNumbersJson values)
  | sourcePoints points => tagged "Ksrc" (list Vec3.toJson points)
  | source groups => tagged "Sdef" (groupsJson groups)
  | tally t => tagged "Tally" t.toJson
  | tallyComment text => tagged "TallyComment" (.str text)
  | energyBins bounds => tagged "EnergyBins" (list .float bounds)
  | timeBins bounds => tagged "TimeBins" (list .float bounds)
  | transform t => tagged "Transform" t.toJson
  | importance values => tagged "Importance" (list .float values)
  | weightWindow values => tagged "WeightWindow" (openNumbersJson values)
  | detectorSpheres values => tagged "Dxtran" (list .float values)
  | cutoff values => tagged "Cutoff" (openNumbersJson values)
  | burn groups => tagged "Burn" (groupsJson groups)
  | meshTally groups => tagged "Fmesh" (groupsJson groups)
  | tokens ts => tagged "Opaque" (stringsJson ts)

def DataCard.toJson (c : DataCard) : Json :=
  .obj [("mnemonic", .str c.mnemonic), ("number", ofOption nat c.number),
    ("prefix", ofOption (fun m => .str (String.singleton m)) c.marker),
    ("particles", list Particle.toJson c.particles), ("payload", c.payload.toJson),
    ("span", c.span.toJson)]

def Deck.toJson (d : Deck) : Json :=
  .obj [("title", .str d.title), ("messages", stringsJson d.messages),
    ("cells", list Cell.toJson d.cells), ("surfaces", list Surface.toJson d.surfaces),
    ("data", list DataCard.toJson d.data)]

def Hierarchy.toJson (h : Hierarchy) : Json :=
  .obj [("universes", list nat h.universes), ("depth", numbersJson nat h.depth),
    ("fills", numbersJson (numbersJson nat) h.fills),
    ("filled_by", numbersJson (list nat) h.filledBy), ("max_depth", nat h.maxDepth),
    ("cycles", list (list nat) h.cycles), ("unreachable", list nat h.unreachable),
    ("instances", numbersJson nat h.instances)]

def CrossRefs.toJson (r : CrossRefs) : Json :=
  .obj [("cells", numbersJson Span.toJson r.cells), ("surfaces", numbersJson Span.toJson r.surfaces),
    ("materials", numbersJson Span.toJson r.materials),
    ("transforms", numbersJson Span.toJson r.transforms),
    ("tallies", numbersJson Span.toJson r.tallies),
    ("universes", numbersJson (list nat) r.universes),
    ("surface_users", numbersJson (list nat) r.surfaceUsers),
    ("material_users", numbersJson (list nat) r.materialUsers),
    ("unused_surfaces", list nat r.unusedSurfaces), ("unused_materials", list nat r.unusedMaterials),
    ("unused_transforms", list nat r.unusedTransforms),
    ("unused_universes", list nat r.unusedUniverses)]

def Analysis.toJson (a : Analysis) : Json :=
  .obj [("deck", ofOption (fun m => m.deck.toJson) a.model),
    ("diagnostics", list Diagnostic.toJson a.diagnostics),
    ("universe_report", ofOption (fun m => m.hierarchy.toJson) a.model),
    ("cross_refs", ofOption (fun m => m.crossRefs.toJson) a.model)]

end TransportDeck
