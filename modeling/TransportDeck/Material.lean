import TransportDeck.Span

namespace TransportDeck

structure Zaid where
  z : Nat
  /-- The mass number, zero for the element as it occurs in nature. -/
  a : Nat
  library : Option String
  deriving DecidableEq, Repr

namespace Zaid

def isNatural (zaid : Zaid) : Bool := zaid.a == 0

def dataClass? (zaid : Zaid) : Option Char :=
  zaid.library.bind fun l => l.toList.getLast?

def describe (zaid : Zaid) : String :=
  let mass := Nat.toDigits 10 zaid.a
  let digits := Nat.toDigits 10 zaid.z ++ List.replicate (3 - mass.length) '0' ++ mass
  match zaid.library with
  | some library => String.ofList digits ++ "." ++ library
  | none => String.ofList digits

end Zaid

inductive FractionKind
  /-- All fractions are positive and count atoms. -/
  | atom
  /-- All fractions are negative and count mass. -/
  | mass
  deriving DecidableEq, Repr

structure Component where
  zaid : Zaid
  /-- The fraction as written. -/
  fraction : Float
  deriving DecidableEq

structure Material where
  number : Nat
  components : List Component
  /-- Keyword options such as a default library. -/
  options : List (String × String)
  span : Span := .zero
  deriving DecidableEq

namespace Material

def fractionKind? (m : Material) : Option FractionKind :=
  if m.components.isEmpty then none
  else if m.components.all fun c => c.fraction < 0 then some .mass
  else if m.components.all fun c => !(c.fraction < 0) then some .atom
  else none

/-- The sum of the fractions without their signs, added in order to a start of minus zero. -/
def totalFraction (m : Material) : Float :=
  m.components.foldl (fun sum c => sum + c.fraction.abs) (-0.0)

def option? (m : Material) (key : String) : Option String :=
  m.options.lookup key

end Material

structure Thermal where
  material : Nat
  tables : List String
  span : Span := .zero
  deriving DecidableEq, Repr

end TransportDeck
