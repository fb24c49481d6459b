import TransportDeck.CardFault
import TransportDeck.Number.Notation
import TransportDeck.Text.Blank

/-!
Shorthands in lists of numbers: `nR` repeats the entry before it, `nI` and `nILOG` put points
between two entries, `xM` multiplies, and `nJ` leaves entries at their defaults. A count left out
is one.
-/

namespace TransportDeck.Number

inductive Shorthand
  | copies (count : Nat)
  | linear (count : Nat)
  | logarithmic (count : Nat)
  | multiple (factor : Float)
  | jumps (count : Nat)
  deriving DecidableEq

namespace Shorthand

def count : Shorthand → Nat
  | copies n | linear n | logarithmic n | jumps n => n
  | multiple _ => 1

def maxCount : Nat := 18446744073709551615

def ofLetters? (n : Nat) (letters : String) : Option Shorthand :=
  match letters with
  | "r" => some (copies n)
  | "i" => some (linear n)
  | "ilog" | "log" => some (logarithmic n)
  | "j" => some (jumps n)
  | _ => none

def readMultiple? (cs : List Char) : Option Shorthand :=
  match scanFloat? cs with
  | some (x, [c]) => if c.toLower = 'm' then some (multiple x) else none
  | _ => none

def readCounted? (cs : List Char) : Option Shorthand :=
  let (n, letters) := (scanNat? maxCount cs).getD (1, cs)
  ofLetters? n (String.ofList (Text.lower letters))

def read? (token : String) : Option Shorthand :=
  match readMultiple? token.toList with
  | some s => some s
  | none => readCounted? token.toList

end Shorthand

def linearPoints (start stop : Float) (n : Nat) : List Float :=
  let steps := Float.ofNat (n + 1)
  (List.range n).map fun k => start + (stop - start) * (Float.ofNat (k + 1) / steps)

def logarithmicPoints (start stop : Float) (n : Nat) : List Float :=
  let steps := Float.ofNat (n + 1)
  (List.range n).map fun k =>
    (start.log + (stop.log - start.log) * (Float.ofNat (k + 1) / steps)).exp

/-- The points that an interpolation puts between two entries. Logarithms need both to be
positive. -/
def Shorthand.between? (start stop : Float) : Shorthand → Option (List Float)
  | .linear n => some (linearPoints start stop n)
  | .logarithmic n =>
    if start ≤ 0 || stop ≤ 0 then none else some (logarithmicPoints start stop n)
  | _ => none

/-- Expands the tokens that follow `produced` entries, the last of which is `last`. An entry that a
jump leaves open is `none`. -/
def expandFrom (produced : Nat) (last : Option (Option Float)) :
    List String → Except CardFault (List (Option Float))
  | [] => .ok []
  | token :: rest =>
    match readFloat? token with
    | some x => do
      let tail ← expandFrom (produced + 1) (some (some x)) rest
      return some x :: tail
    | none =>
      match Shorthand.read? token with
      | none => .error (.number token)
      | some shorthand =>
        if produced + shorthand.count > maxExpandedLength then .error (.tooLong token)
        else
          -- what a shorthand needs before it, an entry or a number, decides the cases
          match shorthand, last with
          | .copies n, some entry => do
            let tail ← expandFrom (produced + n) last rest
            return List.replicate n entry ++ tail
          | .multiple factor, some (some x) => do
            let tail ← expandFrom (produced + 1) (some (some (x * factor))) rest
            return some (x * factor) :: tail
          | .jumps n, _ => do
            -- jumping over nothing leaves the last entry what it was
            let tail ← expandFrom (produced + n) (if n = 0 then last else some none) rest
            return List.replicate n none ++ tail
          | shorthand, some (some start) =>
            match rest with
            | [] => .error (.dangling token)
            | next :: rest =>
              match readFloat? next with
              | none => .error (.dangling token)
              | some stop =>
                match shorthand.between? start stop with
                | none => .error (.dangling token)
                | some points => do
                  let tail ← expandFrom (produced + points.length + 1) (some (some stop)) rest
                  return points.map some ++ some stop :: tail
          | _, _ => .error (.dangling token)

def expandValues (tokens : List String) : Except CardFault (List (Option Float)) :=
  expandFrom 0 none tokens

def expandNumbers (tokens : List String) : Except CardFault (List Float) := do
  let values ← expandValues tokens
  if values.all Option.isSome then return values.filterMap id else throw .jump

end TransportDeck.Number
