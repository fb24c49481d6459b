import TransportDeck.Span

/-!
Coordinate transformations: a displacement, an optional rotation, and a flag for the origin. The
entries are kept as written; a starred form gives the rotation as angles in degrees.
-/

namespace TransportDeck

structure Vec3 where
  x : Float
  y : Float
  z : Float
  deriving DecidableEq, Inhabited

namespace Vec3

def toList (v : Vec3) : List Float := [v.x, v.y, v.z]

def map (f : Float → Float) (v : Vec3) : Vec3 := ⟨f v.x, f v.y, f v.z⟩

def dot (v w : Vec3) : Float := v.x * w.x + v.y * w.y + v.z * w.z

def norm (v : Vec3) : Float := (v.dot v).sqrt

end Vec3

structure Matrix3 where
  row1 : Vec3
  row2 : Vec3
  row3 : Vec3
  deriving DecidableEq, Inhabited

namespace Matrix3

def toList (m : Matrix3) : List Float := m.row1.toList ++ m.row2.toList ++ m.row3.toList

def map (f : Float → Float) (m : Matrix3) : Matrix3 := ⟨m.row1.map f, m.row2.map f, m.row3.map f⟩

def det (m : Matrix3) : Float :=
  let ⟨a, b, c⟩ := m.row1
  let ⟨d, e, f⟩ := m.row2
  let ⟨g, h, i⟩ := m.row3
  a * (e * i - h * f) - b * (d * i - g * f) + c * (d * h - g * e)

def isOrthonormal (m : Matrix3) (tolerance : Float) : Bool :=
  let rows := [m.row1, m.row2, m.row3]
  let pairs := [(m.row1, m.row2), (m.row1, m.row3), (m.row2, m.row3)]
  (rows.all fun r => (r.norm - 1).abs ≤ tolerance) &&
    pairs.all fun (r, s) => (r.dot s).abs ≤ tolerance

end Matrix3

structure Transform where
  number : Nat
  displacement : Vec3
  /-- The rotation entries as written. -/
  rotation : Option Matrix3
  /-- Whether the rotation entries are angles. -/
  degrees : Bool
  /-- The origin flag, one or minus one. -/
  origin : Int
  span : Span
  deriving DecidableEq

namespace Transform

def validLengths : List Nat := [3, 12, 13]

def originFlag? (m : Float) : Option Int :=
  if m == 1 then some 1 else if m == -1 then some (-1) else none

/-- The transformation of a list of entries: three for the displacement, nine more for the rotation,
and one more for the origin flag. -/
def ofValues? (number : Nat) (values : List Float) (degrees : Bool) : Option Transform :=
  match values with
  | [x, y, z] => some ⟨number, ⟨x, y, z⟩, none, degrees, 1, .zero⟩
  | [x, y, z, a, b, c, d, e, f, g, h, i] =>
    some ⟨number, ⟨x, y, z⟩, some ⟨⟨a, b, c⟩, ⟨d, e, f⟩, ⟨g, h, i⟩⟩, degrees, 1, .zero⟩
  | [x, y, z, a, b, c, d, e, f, g, h, i, m] =>
    (originFlag? m).map fun origin =>
      ⟨number, ⟨x, y, z⟩, some ⟨⟨a, b, c⟩, ⟨d, e, f⟩, ⟨g, h, i⟩⟩, degrees, origin, .zero⟩
  | _ => none

def pi : Float := Float.ofBits 0x400921FB54442D18

def cosineOfDegrees (angle : Float) : Float := (angle * (pi / 180)).cos

def cosines? (t : Transform) : Option Matrix3 :=
  t.rotation.map fun m => if t.degrees then m.map cosineOfDegrees else m

end Transform

inductive TransformSpec
  /-- The number of a transform card. -/
  | reference (number : Nat)
  /-- Entries written on the cell card itself. -/
  | inlined (values : List Float) (degrees : Bool)
  deriving DecidableEq

namespace TransformSpec

def reference? : TransformSpec → Option Nat
  | reference n => some n
  | inlined .. => none

def transform? : TransformSpec → Option Transform
  | reference _ => none
  | inlined values degrees => Transform.ofValues? 0 values degrees

end TransformSpec

end TransportDeck
