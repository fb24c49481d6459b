import TransportDeck.Card.Transform
import TransportDeck.Fill
import TransportDeck.Number.Shorthand

/-!
Fills on cell cards. Index ranges at the front make a lattice; otherwise one universe fills the
cell. Repeats may expand a lattice up to the size that its ranges declare.
-/

namespace TransportDeck.Card

open Number

/-- Appends copies of the last entry to entries in reverse order, up to `limit` entries in all. -/
def repeatEntry (limit : Nat) (token : String) (n : Nat) :
    List FillEntry → Except CardFault (List FillEntry)
  | [] => .error (.repeatFirst token)
  | last :: earlier =>
    if (last :: earlier).length + n ≤ limit then
      .ok (List.replicate n last ++ last :: earlier)
    else .error (.repeatTooLong token limit)

def pushEntry (limit : Nat) (token : String) (entries : List FillEntry) :
    Except CardFault (List FillEntry) :=
  match readInt32? token with
  | some u => .ok ({ signedUniverse := u } :: entries)
  | none =>
    match Shorthand.read? token with
    | some (.copies n) => repeatEntry limit token n entries
    | _ => .error (.number token)

def transformLast (spec : TransformSpec) : List FillEntry → Except CardFault (List FillEntry)
  | [] => .error .fillTransformFirst
  | last :: earlier => .ok ({ last with transform := some spec } :: earlier)

/-- The entries of a lattice after `entries`, both in reverse order. -/
def readEntries (degrees : Bool) (limit : Nat) (entries : List FillEntry) :
    List String → Except CardFault (List FillEntry)
  | [] => .ok entries
  | token :: rest =>
    if token = "(" then
      match _h : rest.dropWhile (· != ")") with
      | [] => .error .fillUnclosed
      | close :: after => do
        let spec ← readTransformSpec degrees (token :: rest.takeWhile (· != ")") ++ [close])
        let entries ← transformLast spec entries
        readEntries degrees limit entries after
    else do
      let entries ← pushEntry limit token entries
      readEntries degrees limit entries rest
termination_by ts => ts.length
decreasing_by
  · have := (List.dropWhile_sublist (· != ")") (l := rest)).length_le
    rw [_h] at this
    simp only [List.length_cons] at this ⊢
    omega
  · simp

def leadingRanges (values : List String) : List (Int × Int) :=
  ((values.take 3).map readRange?).takeWhile Option.isSome |>.filterMap id

/-- The most entries that repeats may expand to. Entries written one by one are never refused. -/
def entryLimit (array : FillArray) (written : Nat) : Nat :=
  max (min (array.declaredLength?.getD 0) maxExpandedLength) written

def readArray (degrees : Bool) (values : List String) : Except CardFault FillArray :=
  match leadingRanges values with
  | [i, j, k] => do
    let array : FillArray := ⟨⟨i.1, i.2⟩, ⟨j.1, j.2⟩, ⟨k.1, k.2⟩, []⟩
    let written := values.drop 3
    let entries ← readEntries degrees (entryLimit array written.length) [] written
    if entries.isEmpty then throw .fillEntriesMissing
    return { array with entries := entries.reverse }
  | ranges => .error (.fillRanges ranges.length)

def readFillTransform (degrees : Bool) : List String → Except CardFault (Option TransformSpec)
  | [] => .ok none
  | token :: rest =>
    if token = "(" then some <$> readTransformSpec degrees (token :: rest)
    else .error (.fillTrailing token)

def readFill (degrees : Bool) : List String → Except CardFault Fill
  | [] => .error .fillEmpty
  | first :: rest =>
    if (readRange? first).isSome then .array <$> readArray degrees (first :: rest)
    else do
      let target ← readInt32 first
      let transform ← readFillTransform degrees rest
      return .simple target transform

end TransportDeck.Card
