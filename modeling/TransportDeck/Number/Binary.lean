/-!
Floating point numbers taken apart into a sign, a mantissa and a power of two, so that what is
written and counted can be said in exact arithmetic on whole numbers.
-/

namespace TransportDeck.Number

structure Binary where
  mantissa : Nat
  exponent : Int
  deriving DecidableEq, Repr

inductive Parts
  | nan
  | infinite (negative : Bool)
  | finite (negative : Bool) (magnitude : Binary)
  deriving DecidableEq, Repr

/-- Reads the sign, the eleven exponent bits and the 52 fraction bits. -/
def parts (x : Float) : Parts :=
  let bits := x.toBits.toNat
  let negative := bits / Nat.pow 2 63 == 1
  let exponent : Nat := bits / Nat.pow 2 52 % Nat.pow 2 11
  let fraction : Nat := bits % Nat.pow 2 52
  if exponent = 2047 then if fraction = 0 then .infinite negative else .nan
  else if exponent = 0 then .finite negative ⟨fraction, -1074⟩
  else .finite negative ⟨Nat.pow 2 52 + fraction, (exponent : Int) - 1075⟩

def Binary.whole? (b : Binary) : Option Nat :=
  let unit := Nat.pow 2 (-b.exponent).toNat
  if b.mantissa % unit = 0 then some (b.mantissa / unit * Nat.pow 2 b.exponent.toNat) else none

def whole? (x : Float) : Option Nat :=
  match parts x with
  | .finite negative b => if negative && b.mantissa != 0 then none else b.whole?
  | _ => none

end TransportDeck.Number
