import TransportDeck.Card.Cell
import TransportDeck.Surface

namespace TransportDeck.Card

open Number

def scanBoundary : List Char → Boundary × List Char
  | '*' :: rest => (.reflecting, rest)
  | '+' :: rest => (.white, rest)
  | rest => (.ordinary, rest)

def readSurfaceNumber? (token : String) : Option (Boundary × Nat) :=
  let (boundary, rest) := scanBoundary token.toList
  match scanNat? maxId rest with
  | some (number, []) => if number = 0 then none else some (boundary, number)
  | _ => none

def splitTransform : List String → Option Int × List String
  | [] => (none, [])
  | token :: rest =>
    match readInt32? token with
    | some n => (some n, rest)
    | none => (none, token :: rest)

def readNumberedSurface (boundary : Boundary) (number : Nat) (rest : List String) :
    Except CardFault (Surface × List CardFault) :=
  match splitTransform rest with
  | (_, []) => .error .mnemonicMissing
  | (transform, mnemonic :: values) =>
    let kind := SurfaceKind.ofMnemonic mnemonic
    if values.isEmpty then .error (.coefficientsMissing kind.mnemonic)
    else
      let results := values.map readFloat
      .ok ({ number, boundary, transform, kind, coefficients := succeeded results }, failed results)

def readSurface (text : List Char) : CardResult Surface :=
  match Text.tokens [] text with
  | [] => .error ⟨none, .surfaceEmpty⟩
  | first :: rest =>
    match readSurfaceNumber? first with
    | none => .error ⟨some "surface card", .number first⟩
    | some (boundary, number) =>
      onCard s!"surface {number}" (readNumberedSurface boundary number rest)

end TransportDeck.Card
