import TransportDeck.Card.Fill
import TransportDeck.Card.Keyword
import TransportDeck.Card.Region
import TransportDeck.Cell

namespace TransportDeck.Card

open Number

/-- Reading that changes the parameters of a cell on the way. A fault leaves the changes made before
it. -/
abbrev OnParams := ExceptT CardFault (StateM CellParams)

def single (keyword : String) : List String → Except CardFault String
  | [value] => .ok value
  | values => .error (.singleValue keyword values.length)

/-- The part of a keyword before its colon, and the designators after it. -/
def splitKeyword (keyword : String) : String × Option String :=
  let (name, designators) := Text.cut ':' keyword.toList
  (String.ofList name, designators.map String.ofList)

def applyImportance (keyword : String) (designators : Option String) (values : List String) :
    OnParams Unit := do
  let designators ← orFault .importanceParticle designators
  let particles ← orFault (.keywordParticle keyword) (Particle.ofList? designators)
  let value ← readFloat (← single keyword values)
  if value < 0 then throw (.negativeImportance value)
  particles.forM fun particle =>
    modify fun p => { p with importance := p.importance.insert particle value }

def applyTemperature (keyword : String) (values : List String) : OnParams Unit := do
  let value ← readFloat (← single keyword values)
  if value ≤ 0 then throw (.temperature value)
  modify fun p => { p with temperature := some value }

def applyTransform (degrees : Bool) (values : List String) : OnParams Unit := do
  let spec ← readTransformSpec degrees values
  modify fun p => { p with transform := some spec }

def applyFill (degrees : Bool) (values : List String) : OnParams Unit := do
  let fill ← readFill degrees values
  modify fun p => { p with fill := some fill }

/-- Applies one keyword group. A star before the keyword gives rotations in degrees. -/
def applyParam (keyword : String) (values : List String) : OnParams Unit := do
  let (name, designators) := splitKeyword keyword
  match name with
  | "imp" => applyImportance keyword designators values
  | "u" =>
    let u ← readInt32 (← single keyword values)
    modify fun p => { p with signedUniverse := some u }
  | "lat" =>
    let kind ← readInt32 (← single keyword values)
    modify fun p => { p with lattice := some kind }
  | "vol" =>
    let volume ← readFloat (← single keyword values)
    modify fun p => { p with volume := some volume }
  | "tmp" => applyTemperature keyword values
  | "trcl" => applyTransform false values
  | "*trcl" => applyTransform true values
  | "fill" => applyFill false values
  | "*fill" => applyFill true values
  | _ => modify fun p => { p with other := p.other ++ [(keyword, values)] }

def applyGroup (state : CellParams × List CardFault) (g : String × List String) :
    CellParams × List CardFault :=
  match (applyParam g.1 g.2).run.run state.1 with
  | (.ok _, params) => (params, state.2)
  | (.error fault, params) => (params, state.2 ++ [fault])

def readGroups (groups : KeywordGroups) : CellParams × List CardFault :=
  groups.foldl applyGroup ({}, [])

def cellGroups (ts : List String) : KeywordGroups :=
  keywordGroups (Text.splitTokens ['(', ')'] ts)

def readParams (ts : List String) : CellParams × List CardFault :=
  readGroups (cellGroups ts)

/-- Keywords that are kept without comment, before any digits at their end. -/
def silentKeywords : List String :=
  ["mat", "rho", "pwt", "ext", "fcl", "wwn", "dxc", "nonu", "pd", "elpt", "cosy", "bflcl", "unc"]

def isSilentKeyword (keyword : String) : Bool :=
  let stem := ((splitKeyword keyword).1.toList.reverse.dropWhile Char.isDigit).reverse
  silentKeywords.contains (String.ofList stem)

def unrecognised (c : Cell) : List String :=
  (c.params.other.map (·.1)).filter fun keyword => !isSilentKeyword keyword

def readLike : List String → Except CardFault (Nat × List String)
  | [] => .error .likeIncomplete
  | base :: rest => do
    let base ← readId base
    match rest with
    | "but" :: params => return (base, params)
    | _ => throw .likeWithoutBut

def readFull (number : Nat) (material : String) (rest : List String) :
    Except CardFault (Cell × List CardFault) := do
  let material ← orFault (.number material) (readCardinal? material)
  let (density, rest) ←
    if material = 0 then pure (none, rest)
    else match rest with
      | [] => throw .densityMissing
      | token :: rest => do
        let density ← readFloat token
        pure (some density, rest)
  let regionTokens := rest.takeWhile fun t => !isKeyword t
  if regionTokens.isEmpty then throw .regionMissing
  let region ← readRegion (Text.joined " " regionTokens).toList
  let (params, faults) := readParams (rest.dropWhile fun t => !isKeyword t)
  return ({ number, material, density, region, params }, faults)

def readNumbered (number : Nat) (second : String) (rest : List String) :
    Except CardFault (Cell × List CardFault) :=
  if second = "like" then do
    let (base, rest) ← readLike rest
    let (params, faults) := readParams rest
    return ({ number, params, like := some base }, faults)
  else readFull number second rest

def readCell (text : List Char) : CardResult Cell :=
  match Text.tokens ['='] text with
  | first :: second :: rest =>
    match readId? first with
    | none => .error ⟨some "cell card", .number first⟩
    | some number => onCard s!"cell {number}" (readNumbered number second rest)
  | _ => .error ⟨none, .cellTooShort⟩

end TransportDeck.Card
