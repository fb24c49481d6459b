import TransportDeck.Card.Cell

namespace TransportDeck.Card

open Number

def readFrontRegion (words : List String) : Except CardFault Region :=
  readRegion (Text.joined " " (words.takeWhile fun t => !isKeyword t)).toList

def backParams (words : List String) : CellParams :=
  (readParams (words.dropWhile fun t => !isKeyword t)).1

inductive CellForm (rest : List String) : Cell → Prop
  | like {number base : Nat} {params : List String} (hparams : params.Sublist rest) :
      CellForm rest { number, params := (readParams params).1, like := some base }
  | full {number material : Nat} {density : Option Float} {words : List String} {region : Region}
      (hwords : words.Sublist rest) (hdensity : density.isSome ↔ material ≠ 0)
      (hregion : readFrontRegion words = .ok region) :
      CellForm rest { number, material, density, region, params := backParams words }

variable {c : Cell} {number : Nat} {rest : List String} {faults : List CardFault}

def readBack (number material : Nat) (density : Option Float) (words : List String) :
    Except CardFault (Cell × List CardFault) := do
  let regionTokens := words.takeWhile fun t => !isKeyword t
  if regionTokens.isEmpty then throw .regionMissing
  let region ← readRegion (Text.joined " " regionTokens).toList
  let (params, faults) := readParams (words.dropWhile fun t => !isKeyword t)
  return ({ number, material, density, region, params }, faults)

/-- With a density or without one, what comes next is read in the same way. -/
theorem readFull_eq (number : Nat) (material : String) (rest : List String) :
    readFull number material rest = (do
      let material ← orFault (.number material) (readCardinal? material)
      if material = 0 then readBack number material none rest
      else match rest with
        | [] => throw .densityMissing
        | token :: rest => do
          let density ← readFloat token
          readBack number material (some density) rest) := by
  unfold readFull
  cases orFault (.number material) (readCardinal? material) with
  | error fault => rfl
  | ok m =>
    dsimp only [bind, Except.bind]
    by_cases hm : m = 0
    · rw [if_pos hm, if_pos hm]
      rfl
    · rw [if_neg hm, if_neg hm]
      cases rest with
      | nil => rfl
      | cons token rest => cases readFloat token <;> rfl

theorem form_of_readFull {material : String} (h : readFull number material rest = .ok (c, faults)) :
    CellForm rest c := by
  have hform {m : Nat} {density : Option Float} {words : List String} (hwords : words.Sublist rest)
      (hdensity : density.isSome ↔ m ≠ 0)
      (h : readBack number m density words = .ok (c, faults)) : CellForm rest c := by
    unfold readBack at h
    dsimp only at h
    split at h
    · cases h
    · obtain ⟨region, hregion, h⟩ := bind_eq_ok.mp h
      rw [← (Prod.mk.inj (Except.ok.inj h)).1]
      exact .full hwords hdensity hregion
  rw [readFull_eq] at h
  obtain ⟨m, _, h⟩ := bind_eq_ok.mp h
  split at h
  · next hvoid => exact hform (List.Sublist.refl rest) (by simp [hvoid]) h
  · next hfilled =>
    split at h
    · cases h
    · obtain ⟨density, _, h⟩ := bind_eq_ok.mp h
      exact hform (List.sublist_cons_self _ _) (by simp [hfilled]) h

/-- The parameters follow the base and the word after it. -/
theorem sublist_of_readLike {ts params : List String} {base : Nat}
    (h : readLike ts = .ok (base, params)) : params.Sublist ts := by
  unfold readLike at h
  split at h
  · cases h
  · obtain ⟨id, _, h⟩ := bind_eq_ok.mp h
    split at h
    · cases h
      exact (List.sublist_cons_self _ _).trans (List.sublist_cons_self _ _)
    · cases h

theorem form_of_readNumbered {second : String}
    (h : readNumbered number second rest = .ok (c, faults)) : CellForm rest c := by
  unfold readNumbered at h
  split at h
  · obtain ⟨⟨base, params⟩, hlike, h⟩ := bind_eq_ok.mp h
    rw [← (Prod.mk.inj (Except.ok.inj h)).1]
    exact .like (sublist_of_readLike hlike)
  · exact form_of_readFull h

/-- A cell that is read has one of the two forms. -/
theorem form_of_readCell {text : List Char} {issues : List CardIssue}
    (h : readCell text = .ok (c, issues)) :
    ∃ first second rest, Text.tokens ['='] text = first :: second :: rest ∧ CellForm rest c := by
  unfold readCell at h
  split at h
  · next first second rest htokens =>
    split at h
    · cases h
    · obtain ⟨faults, hread, _⟩ := onCard_eq_ok.mp h
      exact ⟨first, second, rest, htokens, form_of_readNumbered hread⟩
  · cases h

end TransportDeck.Card
