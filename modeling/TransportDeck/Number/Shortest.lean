import TransportDeck.Number.Binary

/-!
The fewest decimal digits that read back as a given floating point number. The decimal grids of
one, two, … digits are searched for a point that rounds to it. Everything is exact arithmetic on
natural numbers.
-/

namespace TransportDeck.Number

/-- The reals that round to a number, over the common denominator `unit`. The ends belong to the
interval if `closed`. -/
structure Rounding where
  low : Nat
  value : Nat
  high : Nat
  unit : Nat
  closed : Bool
  deriving DecidableEq, Repr

/-- Half way to either neighbour; below a power of two the neighbours stand twice as close. Ties
round to the even mantissa. -/
def Binary.rounding (b : Binary) : Rounding :=
  let up := Nat.pow 2 (b.exponent - 2).toNat
  -- the spacing halves below the smallest mantissa, except where subnormal numbers come next
  let below := if b.mantissa = Nat.pow 2 52 ∧ -1074 < b.exponent then 1 else 2
  { low := (4 * b.mantissa - below) * up
    value := 4 * b.mantissa * up
    high := (4 * b.mantissa + 2) * up
    unit := Nat.pow 2 (2 - b.exponent).toNat
    closed := b.mantissa % 2 == 0 }

structure Decimal where
  digits : Nat
  exponent : Int
  deriving DecidableEq, Repr

def leadingExponent (n d : Nat) : Int :=
  if d ≤ n then ((Nat.toDigits 10 (n / d)).length : Int) - 1
  else
    let t := (Nat.toDigits 10 (d / n)).length
    if n * Nat.pow 10 (t - 1) = d then 1 - (t : Int) else -(t : Int)

def Rounding.inUnits (r : Rounding) (exponent : Int) : Rounding :=
  let up := Nat.pow 10 (-exponent).toNat
  { r with
    low := r.low * up
    value := r.value * up
    high := r.high * up
    unit := r.unit * Nat.pow 10 exponent.toNat }

def Rounding.holds (r : Rounding) (n : Nat) : Bool :=
  if r.closed then r.low ≤ n * r.unit && n * r.unit ≤ r.high
  else r.low < n * r.unit && n * r.unit < r.high

inductive Tie
  | toEven
  | upward
  deriving DecidableEq, Repr

/-- The whole number in the interval that is nearest to the value, if one of the two around the
value lies in it. -/
def Rounding.nearest? (tie : Tie) (r : Rounding) : Option Nat :=
  let n := r.value / r.unit
  match r.holds n, r.holds (n + 1) with
  | false, false => none
  | true, false => some n
  | false, true => some (n + 1)
  | true, true =>
    if 2 * r.value < (2 * n + 1) * r.unit then some n
    else if (2 * n + 1) * r.unit < 2 * r.value then some (n + 1)
    else match tie with
      | .toEven => some (n + n % 2)
      | .upward => some (n + 1)

/-- The nearest of the shortest decimals that read back. Seventeen digits always suffice. -/
def Rounding.shortest (tie : Tie) (r : Rounding) : Decimal :=
  let lead := leadingExponent r.value r.unit
  let found := (List.range 17).findSome? fun (k : Nat) =>
    let exponent := lead - k
    ((r.inUnits exponent).nearest? tie).map fun n => (⟨n, exponent⟩ : Decimal)
  found.getD ⟨r.value / r.unit, 0⟩

end TransportDeck.Number
