import TransportDeck.Card.Keyword
import TransportDeck.Card.Material
import TransportDeck.Card.Tally
import TransportDeck.Number.Binary
import TransportDeck.Number.Shorthand

namespace TransportDeck.Card

open Number

def readMnemonics : List String :=
  ["m", "mt", "mode", "nps", "kcode", "ksrc", "sdef", "f", "fc", "e", "t", "tr", "imp", "wwn",
    "wwe", "wwp", "dxt", "cut", "burn", "fmesh"]

def keptMnemonics : List String :=
  ["act", "area", "awtab", "bbrem", "bfld", "cf", "cm", "cmesh", "cosy", "cosyp", "ctme",
    "dawwg", "dbcn", "dd", "de", "df", "dm", "drxs", "ds", "dxc", "elpt", "em", "embeb", "embed",
    "embee", "embem", "embtb", "embtm", "esplt", "ext", "fcl", "fic", "files", "fill", "fip",
    "fir", "field", "fm", "fmult", "fq", "fs", "ft", "fu", "hsrc", "histp", "kopts", "kpert",
    "ksen", "lat", "lca", "lcb", "lcc", "lea", "leb", "lost", "m", "mesh", "mgopt", "mplot",
    "mpn", "mx", "nonu", "notrn", "otfdb", "pd", "pert", "phys", "pikmt", "print", "prdmp",
    "ptrac", "pwt", "rand", "read", "rmesh", "sb", "sc", "sd", "sf", "si", "smesh", "sp",
    "spdtl", "ssr", "ssw", "stop", "talnp", "tf", "thtme", "tm", "tmesh", "tmp", "totnu", "trcl",
    "tropt", "tsplt", "u", "unc", "var", "vol", "void", "wwg", "wwge", "wwgt", "xs"]

def isKnownMnemonic (mnemonic : String) : Bool :=
  readMnemonics.contains mnemonic || keptMnemonics.contains mnemonic

structure CardName where
  marker : Option Char
  mnemonic : String
  number : Option Nat
  designators : Option String
  deriving DecidableEq, Repr

def scanMarker : List Char → Option Char × List Char
  | '*' :: rest => (some '*', rest)
  | '+' :: rest => (some '+', rest)
  | rest => (none, rest)

/-- A number at the front; one that is too large is left to the rest. -/
def scanCardNumber (cs : List Char) : Option Nat × List Char :=
  match scanNat? maxId cs with
  | some (n, rest) => (some n, rest)
  | none => (none, cs)

def readDesignators? : List Char → Option (Option String)
  | [] => some none
  | ':' :: rest => some (some (String.ofList (Text.lower rest)))
  | _ => none

def readCardName? (word : List Char) : Option CardName :=
  let (marker, rest) := scanMarker word
  let letters := rest.takeWhile Char.isAlpha
  let (number, rest) := scanCardNumber (rest.dropWhile Char.isAlpha)
  if letters.isEmpty then none
  else (readDesignators? rest).map fun designators =>
    ⟨marker, String.ofList (Text.lower letters), number, designators⟩

def readMode (ts : List String) : Except CardFault (List Particle) := do
  let lists ← ts.mapM fun t => orFault (.modeParticle t) (Particle.ofList? t)
  let particles := lists.foldl Particle.addNew []
  if particles.isEmpty then throw .modeEmpty
  return particles

/-- The largest number of histories, where greater numbers are cut off. -/
def maxHistories : Nat := 18446744073709551615

def readHistories : List String → Except CardFault Nat
  | [] => .error .historyMissing
  | token :: _ => do
    let n ← orFault (.historyFraction token) (whole? (← readFloat token))
    return min maxHistories n

def points? : List Float → Option (List Vec3)
  | [] => some []
  | x :: y :: z :: rest => (points? rest).map (⟨x, y, z⟩ :: ·)
  | _ => none

def readSourcePoints (ts : List String) : Except CardFault (List Vec3) := do
  let values ← expandNumbers ts
  if values.isEmpty then throw (.sourcePoints 0)
  orFault (.sourcePoints values.length) (points? values)

def readTransform (number : Nat) (degrees : Bool) (ts : List String) :
    Except CardFault Transform := do
  checkedTransform number (← expandNumbers ts) degrees

def readCellImportances (particles : List Particle) (ts : List String) :
    Except CardFault (List Float) := do
  if particles.isEmpty then throw .importanceParticle
  let values ← expandNumbers ts
  match values.find? (· < 0) with
  | some value => throw (.negativeImportance value)
  | none => return values

def bodyGroups (body : List Char) : KeywordGroups :=
  keywordGroups (Text.tokens ['='] body)

def complete (payload : Except CardFault Payload) : Except CardFault (Payload × List CardFault) :=
  payload.map fun p => (p, [])

def readPayload (name : CardName) (particles : List Particle) (body : List Char) :
    Except CardFault (Payload × List CardFault) :=
  let ts := Text.tokens [] body
  match name.mnemonic, name.number with
  | "m", some n =>
    if n = 0 then complete (.ok (.tokens ts))
    else (readMaterial n ts).map fun (m, faults) => (.material m, faults)
  | "mt", some n => complete (.ok (.thermal { material := n, tables := ts }))
  | "mode", _ => complete (.mode <$> readMode ts)
  | "nps", _ => complete (.histories <$> readHistories ts)
  | "kcode", _ => complete (.criticality <$> expandValues ts)
  | "ksrc", _ => complete (.sourcePoints <$> readSourcePoints ts)
  | "sdef", _ => complete (.ok (.source (bodyGroups body)))
  | "f", some n => complete (.tally <$> readTally n name.marker particles body)
  | "fc", some _ => complete (.ok (.tallyComment (String.ofList body)))
  | "e", _ => complete (.energyBins <$> expandNumbers ts)
  | "t", _ => complete (.timeBins <$> expandNumbers ts)
  | "tr", some n => complete (.transform <$> readTransform n (name.marker = some '*') ts)
  | "imp", _ => complete (.importance <$> readCellImportances particles ts)
  | "wwn", _ | "wwe", _ | "wwp", _ => complete (.weightWindow <$> expandValues ts)
  | "dxt", _ => complete (.detectorSpheres <$> expandNumbers ts)
  | "cut", _ => complete (.cutoff <$> expandValues ts)
  | "burn", _ => complete (.ok (.burn (bodyGroups body)))
  | "fmesh", _ => complete (.ok (.meshTally (bodyGroups body)))
  | "f", none | "fc", none | "tr", none => .error (.cardNumber name.mnemonic)
  | _, _ => complete (.ok (.tokens ts))

def nameParticles? (name : CardName) : Option (List Particle) :=
  match name.designators with
  | some designators => Particle.ofList? designators
  | none => some []

def splitHead (text : List Char) : List Char × List Char :=
  let trimmed := Text.trim text
  (trimmed.takeWhile fun c => !Text.isBlank c, Text.trim (trimmed.dropWhile fun c => !Text.isBlank c))

def readData (text : List Char) : CardResult DataCard :=
  let (word, body) := splitHead text
  let head := String.ofList (Text.lower word)
  match readCardName? word with
  | none => .ok ({ mnemonic := head, payload := .tokens (Text.tokens [] body) }, [])
  | some name =>
    match nameParticles? name with
    | none => .error ⟨none, .cardParticle head⟩
    | some particles =>
      onCard head <| (readPayload name particles body).map fun (payload, faults) =>
        ({ mnemonic := name.mnemonic, number := name.number, marker := name.marker, particles,
           payload }, faults)

end TransportDeck.Card
