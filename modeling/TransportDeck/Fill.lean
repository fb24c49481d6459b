import TransportDeck.Number.Word
import TransportDeck.Transform

/-!
Fills: the universe placed in a cell, or one universe for each element of a lattice. The entries of
a lattice are kept as given, with the first index running fastest.
-/

namespace TransportDeck

open Number

structure IndexRange where
  low : Int
  high : Int
  deriving DecidableEq, Repr, Inhabited

namespace IndexRange

def width (r : IndexRange) : Int := r.high - r.low + 1

def holds (r : IndexRange) (n : Int) : Bool := r.low ≤ n && n ≤ r.high

end IndexRange

structure LatticeIndex where
  i : Int
  j : Int
  k : Int
  deriving DecidableEq, Repr, Inhabited

structure FillEntry where
  signedUniverse : Int
  transform : Option TransformSpec := none
  deriving DecidableEq

structure FillArray where
  i : IndexRange
  j : IndexRange
  k : IndexRange
  entries : List FillEntry
  deriving DecidableEq

namespace FillArray

def ranges (a : FillArray) : List IndexRange := [a.i, a.j, a.k]

def hasPositiveWidths (a : FillArray) : Bool := a.ranges.all fun r => 0 < r.width

def maxLength : Int := 9223372036854775807

/-- The number of elements that the ranges declare, unless a width is not positive or a product of
widths does not fit in 64 bits. -/
def declaredLength? (a : FillArray) : Option Nat :=
  if a.hasPositiveWidths then
    (a.ranges.foldlM (fun product r => int64? (product * r.width)) 1).map Int.toNat
  else none

/-- The place of an element in storage order, if every step towards it fits in 64 bits. -/
def place? (a : FillArray) (index : LatticeIndex) : Option Int := do
  let rows ← int64? (a.j.width * (index.k - a.k.low))
  let rows ← int64? (rows + (index.j - a.j.low))
  let before ← int64? (rows * a.i.width)
  int64? (before + (index.i - a.i.low))

def get? (a : FillArray) (index : LatticeIndex) : Option FillEntry :=
  if a.i.holds index.i && a.j.holds index.j && a.k.holds index.k then do
    let place ← a.place? index
    if place < 0 then none else a.entries[place.toNat]?
  else none

/-- The lattice index of the element stored at place `n`. The last index runs on past its range if
there are too many entries; a width that is not positive counts as one, and a layer is as large as
can be counted if it is larger. -/
def indexAt (a : FillArray) (n : Nat) : LatticeIndex :=
  let wi := (max a.i.width 1).toNat
  let wj := (max a.j.width 1).toNat
  let layer := min (wi * wj) maxLength.toNat
  { i := wrap32 (a.i.low + (n % wi : Nat))
    j := wrap32 (a.j.low + (n / wi % wj : Nat))
    k := wrap32 (a.k.low + (n / layer : Nat)) }

def positions (a : FillArray) : List (LatticeIndex × FillEntry) :=
  a.entries.mapIdx fun n entry => (a.indexAt n, entry)

end FillArray

inductive Fill
  /-- One universe for the whole cell. -/
  | simple (signedUniverse : Int) (transform : Option TransformSpec)
  /-- One universe for each lattice element. -/
  | array (elements : FillArray)
  deriving DecidableEq

namespace Fill

def targets : Fill → List Nat
  | simple u _ => [u.natAbs]
  | array a => a.entries.map fun e => e.signedUniverse.natAbs

def transforms : Fill → List TransformSpec
  | simple _ transform => transform.toList
  | array a => a.entries.filterMap (·.transform)

def array? : Fill → Option FillArray
  | simple .. => none
  | array a => some a

end Fill

end TransportDeck
