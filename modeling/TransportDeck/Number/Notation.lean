/-!
Numbers as decks write them. A floating point number has an optional sign, digits with an optional
point, and an optional exponent whose letter may be left out before a sign: `1.5e-3`, `1.5d-3` and
`1.5-3` are the same number. Scanners take what they can from the front of a text and return the
rest; readers accept a whole token or nothing.
-/

namespace TransportDeck.Number

def ofDigits (digits : List Char) : Nat :=
  digits.foldl (fun n d => 10 * n + (d.toNat - '0'.toNat)) 0

def scanSign : List Char → Bool × List Char
  | '-' :: rest => (true, rest)
  | '+' :: rest => (false, rest)
  | rest => (false, rest)

def scanDigits? (cs : List Char) : Option (List Char × List Char) :=
  let digits := cs.takeWhile Char.isDigit
  if digits.isEmpty then none else some (digits, cs.dropWhile Char.isDigit)

structure Mantissa where
  negative : Bool
  whole : List Char
  fraction : List Char
  deriving DecidableEq, Repr

def scanMantissa? (cs : List Char) : Option (Mantissa × List Char) :=
  let (negative, unsigned) := scanSign cs
  let whole := unsigned.takeWhile Char.isDigit
  match unsigned.dropWhile Char.isDigit with
  | '.' :: after =>
    let fraction := after.takeWhile Char.isDigit
    if whole.isEmpty && fraction.isEmpty then none
    else some (⟨negative, whole, fraction⟩, after.dropWhile Char.isDigit)
  | rest => if whole.isEmpty then none else some (⟨negative, whole, []⟩, rest)

def isExponentLetter (c : Char) : Bool :=
  c == 'e' || c == 'E' || c == 'd' || c == 'D'

def isSign (c : Char) : Bool :=
  c == '+' || c == '-'

def scanExponent? : List Char → Option (Int × List Char)
  | [] => none
  | c :: rest =>
    let (negative, unsigned) := if isExponentLetter c then scanSign rest else scanSign (c :: rest)
    if isExponentLetter c || isSign c then
      (scanDigits? unsigned).map fun (digits, rest) =>
        (if negative then -(ofDigits digits : Int) else ofDigits digits, rest)
    else none

/-- The nearest floating point number to a mantissa times a power of ten; a half way case goes to
the even neighbour, and a zero keeps its sign. -/
def Mantissa.value (m : Mantissa) (exponent : Int) : Float :=
  let digits := ofDigits (m.whole ++ m.fraction)
  let shift := exponent - m.fraction.length
  let magnitude := Float.ofScientific digits (shift < 0) shift.natAbs
  if m.negative then -magnitude else magnitude

/-- A floating point number at the front of a text. An exponent that is not complete is left to the
rest. -/
def scanFloat? (cs : List Char) : Option (Float × List Char) :=
  match scanMantissa? cs with
  | none => none
  | some (m, rest) =>
    match scanExponent? rest with
    | some (exponent, rest) => some (m.value exponent, rest)
    | none => some (m.value 0, rest)

def readFloat? (token : String) : Option Float :=
  match scanFloat? token.toList with
  | some (x, []) => some x
  | _ => none

def fitsInt64 (n : Int) : Bool :=
  -9223372036854775808 ≤ n && n ≤ 9223372036854775807

def fitsInt32 (n : Int) : Bool :=
  -2147483648 ≤ n && n ≤ 2147483647

def maxId : Nat := 4294967295

def scanInt? (cs : List Char) : Option (Int × List Char) :=
  let (negative, unsigned) := scanSign cs
  match scanDigits? unsigned with
  | none => none
  | some (digits, rest) =>
    let n : Int := if negative then -(ofDigits digits : Int) else ofDigits digits
    if fitsInt64 n then some (n, rest) else none

def scanNat? (limit : Nat) (cs : List Char) : Option (Nat × List Char) :=
  match scanDigits? cs with
  | none => none
  | some (digits, rest) => if ofDigits digits ≤ limit then some (ofDigits digits, rest) else none

def readInt? (token : String) : Option Int :=
  match scanInt? token.toList with
  | some (n, []) => some n
  | _ => none

def readInt32? (token : String) : Option Int :=
  (readInt? token).filter fitsInt32

def readCardinal? (token : String) : Option Nat :=
  match readInt? token with
  | some n => if 0 ≤ n ∧ n ≤ maxId then some n.toNat else none
  | none => none

def readId? (token : String) : Option Nat :=
  (readCardinal? token).filter (0 < ·)

/-- A number without a minus sign, so that `-0` is refused. -/
def readUnsigned? (token : String) : Option Nat :=
  let digits := match token.toList with
    | '+' :: rest => rest
    | cs => cs
  match scanNat? maxId digits with
  | some (n, []) => some n
  | _ => none

def readRange? (token : String) : Option (Int × Int) :=
  match scanInt? token.toList with
  | some (low, ':' :: rest) =>
    match scanInt? rest with
    | some (high, []) => if fitsInt32 low && fitsInt32 high then some (low, high) else none
    | _ => none
  | _ => none

end TransportDeck.Number
