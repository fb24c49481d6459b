import TransportDeck.Text.Blank

namespace TransportDeck

/-- The surface types. In a pair such as `cylinderX` and `cylinderOnX` the second lies on the axis
itself. -/
inductive Shape
  | plane | planeX | planeY | planeZ | sphereAtOrigin | sphere | sphereOnX | sphereOnY
  | sphereOnZ | cylinderX | cylinderY | cylinderZ | cylinderOnX | cylinderOnY | cylinderOnZ
  | coneX | coneY | coneZ | coneOnX | coneOnY | coneOnZ | axialQuadric | generalQuadric | torusX
  | torusY | torusZ | pointsX | pointsY | pointsZ | box | parallelepiped | ball
  | circularCylinder | hexagonalPrism | hexagon | ellipticCylinder | truncatedCone | ellipsoid
  | wedge | polyhedron
  deriving DecidableEq, Repr, Inhabited

namespace Shape

def all : List Shape :=
  [plane, planeX, planeY, planeZ, sphereAtOrigin, sphere, sphereOnX, sphereOnY, sphereOnZ,
    cylinderX, cylinderY, cylinderZ, cylinderOnX, cylinderOnY, cylinderOnZ, coneX, coneY, coneZ,
    coneOnX, coneOnY, coneOnZ, axialQuadric, generalQuadric, torusX, torusY, torusZ, pointsX,
    pointsY, pointsZ, box, parallelepiped, ball, circularCylinder, hexagonalPrism, hexagon,
    ellipticCylinder, truncatedCone, ellipsoid, wedge, polyhedron]

def mnemonic : Shape → String
  | plane => "p"
  | planeX => "px"
  | planeY => "py"
  | planeZ => "pz"
  | sphereAtOrigin => "so"
  | sphere => "s"
  | sphereOnX => "sx"
  | sphereOnY => "sy"
  | sphereOnZ => "sz"
  | cylinderX => "c/x"
  | cylinderY => "c/y"
  | cylinderZ => "c/z"
  | cylinderOnX => "cx"
  | cylinderOnY => "cy"
  | cylinderOnZ => "cz"
  | coneX => "k/x"
  | coneY => "k/y"
  | coneZ => "k/z"
  | coneOnX => "kx"
  | coneOnY => "ky"
  | coneOnZ => "kz"
  | axialQuadric => "sq"
  | generalQuadric => "gq"
  | torusX => "tx"
  | torusY => "ty"
  | torusZ => "tz"
  | pointsX => "x"
  | pointsY => "y"
  | pointsZ => "z"
  | box => "box"
  | parallelepiped => "rpp"
  | ball => "sph"
  | circularCylinder => "rcc"
  | hexagonalPrism => "rhp"
  | hexagon => "hex"
  | ellipticCylinder => "rec"
  | truncatedCone => "trc"
  | ellipsoid => "ell"
  | wedge => "wed"
  | polyhedron => "arb"

def name : Shape → String
  | plane => "P"
  | planeX => "Px"
  | planeY => "Py"
  | planeZ => "Pz"
  | sphereAtOrigin => "So"
  | sphere => "S"
  | sphereOnX => "Sx"
  | sphereOnY => "Sy"
  | sphereOnZ => "Sz"
  | cylinderX => "CylX"
  | cylinderY => "CylY"
  | cylinderZ => "CylZ"
  | cylinderOnX => "Cx"
  | cylinderOnY => "Cy"
  | cylinderOnZ => "Cz"
  | coneX => "ConeX"
  | coneY => "ConeY"
  | coneZ => "ConeZ"
  | coneOnX => "Kx"
  | coneOnY => "Ky"
  | coneOnZ => "Kz"
  | axialQuadric => "Sq"
  | generalQuadric => "Gq"
  | torusX => "Tx"
  | torusY => "Ty"
  | torusZ => "Tz"
  | pointsX => "X"
  | pointsY => "Y"
  | pointsZ => "Z"
  | box => "Box"
  | parallelepiped => "Rpp"
  | ball => "Sph"
  | circularCylinder => "Rcc"
  | hexagonalPrism => "Rhp"
  | hexagon => "Hex"
  | ellipticCylinder => "Rec"
  | truncatedCone => "Trc"
  | ellipsoid => "Ell"
  | wedge => "Wed"
  | polyhedron => "Arb"

def coefficientCounts : Shape → List Nat
  | plane => [4, 9]
  | planeX | planeY | planeZ | sphereAtOrigin | cylinderOnX | cylinderOnY | cylinderOnZ => [1]
  | sphere | ball => [4]
  | sphereOnX | sphereOnY | sphereOnZ => [2]
  | cylinderX | cylinderY | cylinderZ => [3]
  | coneX | coneY | coneZ => [4, 5]
  | coneOnX | coneOnY | coneOnZ => [2, 3]
  | axialQuadric | generalQuadric => [10]
  | torusX | torusY | torusZ | parallelepiped => [6]
  | pointsX | pointsY | pointsZ => [2, 4, 6]
  | box | wedge => [12]
  | circularCylinder | ellipsoid => [7]
  | hexagonalPrism | hexagon => [9, 15]
  | ellipticCylinder => [10, 12]
  | truncatedCone => [8]
  | polyhedron => [30]

def isMacrobody : Shape → Bool
  | box | parallelepiped | ball | circularCylinder | hexagonalPrism | hexagon | ellipticCylinder
  | truncatedCone | ellipsoid | wedge | polyhedron => true
  | _ => false

def latticePlanes : Shape → Nat
  | box | parallelepiped => 6
  | hexagonalPrism | hexagon => 8
  | _ => 1

end Shape

inductive SurfaceKind
  | known (shape : Shape)
  | unknown (mnemonic : String)
  deriving DecidableEq, Repr

namespace SurfaceKind

def ofMnemonic (s : String) : SurfaceKind :=
  let word := String.ofList (Text.lower s.toList)
  match Shape.all.find? fun shape => shape.mnemonic == word with
  | some shape => known shape
  | none => unknown word

def mnemonic : SurfaceKind → String
  | known shape => shape.mnemonic
  | unknown word => word

def coefficientCounts? : SurfaceKind → Option (List Nat)
  | known shape => some shape.coefficientCounts
  | unknown _ => none

def isMacrobody : SurfaceKind → Bool
  | known shape => shape.isMacrobody
  | unknown _ => false

def latticePlanes : SurfaceKind → Nat
  | known shape => shape.latticePlanes
  | unknown _ => 1

end SurfaceKind

end TransportDeck
