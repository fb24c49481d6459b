import TransportDeck.Card.Transform
import TransportDeck.Material
import TransportDeck.Text.Blank

namespace TransportDeck.Card

open Number

def readLibrary? : List Char → Option (Option String)
  | [] => some none
  | ['.', d, e, l] =>
    if d.isDigit && e.isDigit && l.isAlpha then some (some (String.ofList (Text.lower [d, e, l])))
    else none
  | _ => none

def readZaid? (token : String) : Option Zaid :=
  let digits := token.toList.takeWhile Char.isDigit
  if digits.isEmpty || 6 < digits.length then none
  else
    (readLibrary? (token.toList.dropWhile Char.isDigit)).map fun library =>
      ⟨ofDigits digits / 1000, ofDigits digits % 1000, library⟩

inductive MaterialEntry
  | component (c : Component)
  | option (key value : String)
  /-- An isotope that is left out. -/
  | rejected (fault : CardFault)
  deriving DecidableEq

namespace MaterialEntry

def component? : MaterialEntry → Option Component
  | component c => some c
  | _ => none

def option? : MaterialEntry → Option (String × String)
  | option key value => some (key, value)
  | _ => none

def rejected? : MaterialEntry → Option CardFault
  | rejected fault => some fault
  | _ => none

def ofIsotope (token : String) (fraction : Float) : MaterialEntry :=
  match readZaid? token with
  | none => rejected (.zaid token)
  | some zaid =>
    if 1 ≤ zaid.z ∧ zaid.z ≤ CardFault.maxAtomicNumber then component ⟨zaid, fraction⟩
    else rejected (.atomicNumber zaid.z token)

end MaterialEntry

def readMaterialEntries : List String → Except CardFault (List MaterialEntry)
  | [] => .ok []
  | [token] => .error (.fractionMissing token)
  | [key, second] =>
    if second = "=" then .error (.optionValue key)
    else do
      let fraction ← readFloat second
      return [.ofIsotope key fraction]
  | key :: second :: third :: rest =>
    if second = "=" then do
      let entries ← readMaterialEntries rest
      return .option key third :: entries
    else do
      let fraction ← readFloat second
      let entries ← readMaterialEntries (third :: rest)
      return .ofIsotope key fraction :: entries

def readMaterial (number : Nat) (ts : List String) : Except CardFault (Material × List CardFault) :=
  do
    let entries ← readMaterialEntries (Text.splitTokens ['='] ts)
    let components := entries.filterMap MaterialEntry.component?
    let faults := entries.filterMap MaterialEntry.rejected?
    if components.isEmpty && faults.isEmpty then throw .materialEmpty
    return ({ number, components, options := entries.filterMap MaterialEntry.option? }, faults)

end TransportDeck.Card
