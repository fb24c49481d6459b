import TransportDeck.Card.Surface
import TransportDeck.Proofs.Checked.Tokens

namespace TransportDeck.Checked

open Number

def transformAt (ts : List String) (place : Nat) : Option (Option Int × Nat) :=
  match ts[place]?.bind readInt32? with
  | some n => do return (some n, ← add? place 1)
  | none => some (none, place)

def readNumberedSurface (boundary : Boundary) (number : Nat) (ts : List String) :
    ExceptT CardFault Option (Surface × List CardFault) := do
  let (transform, place) ← step (transformAt ts 1)
  let mnemonic ← sound (orFault .mnemonicMissing ts[place]?)
  let kind := SurfaceKind.ofMnemonic mnemonic
  let next ← step (add? place 1)
  let results := (← step (from? ts next)).map Card.readFloat
  if ts.length = next then throw (.coefficientsMissing kind.mnemonic)
  else
    return ({ number, boundary, transform, kind, coefficients := succeeded results },
      failed results)

def readSurface (text : List Char) : Option (CardResult Surface) := do
  let ts := Text.tokens [] text
  match ts.head? with
  | none => return .error ⟨none, .surfaceEmpty⟩
  | some first =>
    match Card.readSurfaceNumber? first with
    | none => return .error ⟨some "surface card", .number first⟩
    | some (boundary, number) =>
      return onCard s!"surface {number}" (← (readNumberedSurface boundary number ts).run)

section Surfaces

variable {ts : List String}

/-- The tokens from the mnemonic on. -/
theorem transformAt_eq {first : String} {rest : List String} (hts : ts = first :: rest) :
    ∃ place, transformAt ts 1 = some ((Card.splitTransform rest).1, place) ∧ place ≤ 2 ∧
      ts.drop place = (Card.splitTransform rest).2 := by
  subst hts
  cases rest with
  | nil => exact ⟨1, rfl, by omega, rfl⟩
  | cons token rest =>
    have htoken : (first :: token :: rest)[1]? = some token := rfl
    rw [transformAt, htoken, Option.bind_some, Card.splitTransform]
    cases readInt32? token with
    | none => exact ⟨1, rfl, by omega, rfl⟩
    | some n => exact ⟨2, rfl, by omega, rfl⟩

theorem readNumberedSurface_eq (boundary : Boundary) (number : Nat) {first : String}
    {rest : List String} (hts : ts = first :: rest) :
    readNumberedSurface boundary number ts =
      sound (Card.readNumberedSurface boundary number rest) := by
  obtain ⟨place, hplace, htwo, hdrop⟩ := transformAt_eq hts
  unfold readNumberedSurface Card.readNumberedSurface
  rw [hplace]
  generalize Card.splitTransform rest = split at hdrop
  obtain ⟨transform, words⟩ := split
  rw [step_some, pure_bind]
  dsimp only at hdrop ⊢
  cases words with
  | nil =>
    have hnone : ts[place]? = none := List.getElem?_eq_none (le_length_of_drop_nil hdrop)
    rw [hnone]
    rfl
  | cons mnemonic values =>
    obtain ⟨hlt, hitem, hnext⟩ := item?_of_drop hdrop
    have hadd : add? place 1 = some (place + 1) := add?_eq (by rw [maxWord]; omega)
    have hmnemonic : ts[place]? = some mnemonic := hitem
    have hvalues : from? ts (place + 1) = some values := by rw [from?_eq hlt, hnext]
    have hend : ts.length = place + 1 ↔ values.isEmpty := by
      rw [← hnext, List.isEmpty_iff, List.drop_eq_nil_iff]
      omega
    simp only [hmnemonic, hadd, hvalues, step_some, pure_bind, orFault, sound_ok, hend]
    split <;> rfl

theorem readSurface_eq (text : List Char) : readSurface text = some (Card.readSurface text) := by
  unfold readSurface Card.readSurface
  cases Text.tokens [] text with
  | nil => rfl
  | cons first rest =>
    dsimp only [List.head?_cons]
    cases Card.readSurfaceNumber? first with
    | none => rfl
    | some found =>
      obtain ⟨boundary, number⟩ := found
      dsimp only
      rw [readNumberedSurface_eq boundary number rfl, run_sound]
      rfl

end Surfaces

end TransportDeck.Checked
