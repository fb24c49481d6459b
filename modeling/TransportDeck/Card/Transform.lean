import TransportDeck.CardFault
import TransportDeck.Number.Notation
import TransportDeck.Transform

namespace TransportDeck.Card

open Number

def readId (token : String) : Except CardFault Nat :=
  orFault (.number token) (readId? token)

def readFloat (token : String) : Except CardFault Float :=
  orFault (.number token) (readFloat? token)

def readInt32 (token : String) : Except CardFault Int :=
  orFault (.number token) (readInt32? token)

def checkedTransform (number : Nat) (values : List Float) (degrees : Bool) :
    Except CardFault Transform :=
  if Transform.validLengths.contains values.length then
    orFault .originFlag (Transform.ofValues? number values degrees)
  else .error (.transformLength values.length)

/-- The entries between parentheses. A single one is the number of a transform card. -/
def readInlined (degrees : Bool) : List String → Except CardFault TransformSpec
  | [token] => .reference <$> readId token
  | tokens => do
    let values ← tokens.mapM readFloat
    let _ ← checkedTransform 0 values degrees
    return .inlined values degrees

def readTransformSpec (degrees : Bool) : List String → Except CardFault TransformSpec
  | [token] => .reference <$> readId token
  | "(" :: rest =>
    if rest.getLast? = some ")" then readInlined degrees rest.dropLast else .error .transformForm
  | _ => .error .transformForm

end TransportDeck.Card
