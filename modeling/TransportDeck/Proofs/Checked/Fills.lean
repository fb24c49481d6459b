import TransportDeck.Proofs.Card.Fills
import TransportDeck.Proofs.Checked.Numbers

namespace TransportDeck.Checked

open Number

def readInlined (degrees : Bool) : List String → ExceptT CardFault Option TransformSpec
  | [token] => sound (.reference <$> Card.readId token)
  | tokens => do
    let values ← sound (tokens.mapM Card.readFloat)
    let _ ← checkedTransform 0 values degrees
    return .inlined values degrees

def readTransformSpec (degrees : Bool) : List String → ExceptT CardFault Option TransformSpec
  | [token] => sound (.reference <$> Card.readId token)
  | "(" :: rest =>
    if rest.getLast? = some ")" then readInlined degrees rest.dropLast else throw .transformForm
  | _ => throw .transformForm

def width (r : IndexRange) : Option Int := do
  int64? ((← int64? (r.high - r.low)) + 1)

def declaredLength (a : FillArray) : Option (Option Nat) := do
  let widths ← a.ranges.mapM width
  if widths.all fun w => 0 < w then
    return (widths.foldlM (fun product w => int64? (product * w)) 1).map Int.toNat
  else return none

/-- Reads the entry at place `index`, or a transformation in parentheses that belongs to the entry
before it. -/
def entryTurn (degrees : Bool) (limit : Nat) (values : List String) : List FillEntry × Nat →
    ExceptT CardFault Option (List FillEntry ⊕ List FillEntry × Nat)
  | (entries, index) => do
    if index < values.length then
      let token ← step (item? values index)
      if token = "(" then
        let here ← step (from? values index)
        let offset ← sound (orFault .fillUnclosed (here.findIdx? (· == ")")))
        let close ← step (add? index offset)
        let group ← step (slice? values index (← step (add? close 1)))
        let spec ← readTransformSpec degrees group
        let entries ← sound (Card.transformLast spec entries)
        return .inr (entries, ← step (add? close 1))
      else
        let entries ← sound (Card.pushEntry limit token entries)
        return .inr (entries, ← step (add? index 1))
    else return .inl entries

noncomputable def readEntries (degrees : Bool) (limit : Nat) (values : List String)
    (entries : List FillEntry) (index : Nat) : ExceptT CardFault Option (List FillEntry) :=
  loopOr (entryTurn degrees limit values) (entries, index)

noncomputable def readArray (degrees : Bool) (values : List String) : ExceptT CardFault Option FillArray := do
  let ranges := Card.leadingRanges values
  if ranges.length ≠ 3 then throw (.fillRanges ranges.length)
  else
    let i ← step (item? ranges 0)
    let j ← step (item? ranges 1)
    let k ← step (item? ranges 2)
    let array : FillArray := ⟨⟨i.1, i.2⟩, ⟨j.1, j.2⟩, ⟨k.1, k.2⟩, []⟩
    let declared ← step (declaredLength array)
    let written ← step (sub? values.length 3)
    let limit := max (min (declared.getD 0) maxExpandedLength) written
    let entries ← readEntries degrees limit (← step (from? values 3)) [] 0
    if entries.isEmpty then throw .fillEntriesMissing
    else return { array with entries := entries.reverse }

def readFillTransform (degrees : Bool) (rest : List String) :
    ExceptT CardFault Option (Option TransformSpec) := do
  if rest.isEmpty then return none
  else
    let token ← step (item? rest 0)
    if token = "(" then some <$> readTransformSpec degrees rest else throw (.fillTrailing token)

noncomputable def readFill (degrees : Bool) (values : List String) : ExceptT CardFault Option Fill :=
  match values.head? with
  | none => throw .fillEmpty
  | some first =>
    if (readRange? first).isSome then .array <$> readArray degrees values
    else do
      let target ← sound (Card.readInt32 first)
      let transform ← readFillTransform degrees (← step (from? values 1))
      return .simple target transform

section Transforms

theorem readInlined_eq (degrees : Bool) (tokens : List String) :
    readInlined degrees tokens = sound (Card.readInlined degrees tokens) := by
  unfold readInlined Card.readInlined
  split
  · rfl
  · simp [checkedTransform_eq]

theorem readTransformSpec_eq (degrees : Bool) (tokens : List String) :
    readTransformSpec degrees tokens = sound (Card.readTransformSpec degrees tokens) := by
  fun_cases Card.readTransformSpec degrees tokens with
  | case1 token => rfl
  | case2 rest hne hlast =>
    rw [readTransformSpec, if_pos hlast, readInlined_eq]
    exact hne
  | case3 rest hne hlast =>
    rw [readTransformSpec, if_neg hlast]
    · rfl
    · exact hne
  | case4 tokens hsingle hopen =>
    rw [readTransformSpec]
    · rfl
    · exact hsingle
    · exact hopen

end Transforms

section Widths

theorem width_eq {r : IndexRange} (h : r.IsWord) : width r = some r.width := by
  obtain ⟨hlow, hhigh⟩ := h
  simp only [fitsInt32, Bool.and_eq_true, decide_eq_true_eq] at hlow hhigh
  have hspan : fitsInt64 (r.high - r.low) = true := by
    simp only [fitsInt64, Bool.and_eq_true, decide_eq_true_eq]
    omega
  have hwidth : fitsInt64 (r.high - r.low + 1) = true := by
    simp only [fitsInt64, Bool.and_eq_true, decide_eq_true_eq]
    omega
  rw [width, int64?_of_fits hspan]
  exact int64?_of_fits hwidth

theorem widths_eq {rs : List IndexRange} (h : ∀ r ∈ rs, r.IsWord) :
    rs.mapM width = some (rs.map IndexRange.width) :=
  mapM_eq_some fun r hr => width_eq (h r hr)

theorem all_widths (a : FillArray) :
    (a.ranges.map IndexRange.width).all (fun w => 0 < w) = a.hasPositiveWidths := by
  rw [List.all_map]
  rfl

theorem declaredLength_eq {a : FillArray} (h : ∀ r ∈ a.ranges, r.IsWord) :
    declaredLength a = some a.declaredLength? := by
  rw [declaredLength, widths_eq h, FillArray.declaredLength?, Option.bind_eq_bind, Option.bind_some,
    all_widths]
  split
  · rw [List.foldlM_map]
    rfl
  · rfl

end Widths

section Entries

variable {values : List String}

/-- The first item that satisfies a condition stands after those that do not. -/
theorem findIdx?_eq {α : Type} (p : α → Bool) (xs : List α) :
    xs.findIdx? p = if (xs.dropWhile fun x => !p x).isEmpty then none
      else some (xs.takeWhile fun x => !p x).length := by
  induction xs with
  | nil => rfl
  | cons x xs ih =>
    rw [List.findIdx?_cons]
    cases hx : p x
    · rw [ih, List.dropWhile_cons_of_pos (by simp [hx]), List.takeWhile_cons_of_pos (by simp [hx]),
        if_neg Bool.false_ne_true]
      split <;> rfl
    · simp [hx]

theorem readEntries_turn (degrees : Bool) (limit : Nat) (entries : List FillEntry) (index : Nat) :
    readEntries degrees limit values entries index =
      entryTurn degrees limit values (entries, index) >>=
        Sum.elim pure fun s => readEntries degrees limit values s.1 s.2 :=
  loopOr_eq _ _

/-- A group goes from the opening to the first closing parenthesis, and all its places can be counted. -/
theorem group_of_drop (hvalues : values.length < lengthLimit) {index : Nat} {rest after : List String}
    {close : String} (hrest : values.drop index = "(" :: rest)
    (hclosed : rest.dropWhile (· != ")") = close :: after) :
    ∃ length, ("(" :: rest).findIdx? (· == ")") = some length ∧
      add? index length = some (index + length) ∧
      add? (index + length) 1 = some (index + (length + 1)) ∧
      slice? values index (index + (length + 1)) =
        some ("(" :: rest.takeWhile (· != ")") ++ [close]) ∧
      values.drop (index + (length + 1)) = after := by
  have hsplit : values.drop index = "(" :: rest.takeWhile (· != ")") ++ [close] ++ after := by
    rw [hrest, List.append_assoc, List.singleton_append, ← hclosed, List.cons_append,
      List.takeWhile_append_dropWhile]
  have hfound : ("(" :: rest).findIdx? (· == ")") =
      some ((rest.takeWhile (· != ")")).length + 1) := by
    have hsome : (rest.dropWhile fun x => !(x == ")")) = close :: after := hclosed
    rw [findIdx?_eq, List.dropWhile_cons_of_pos (by decide), hsome,
      List.takeWhile_cons_of_pos (by decide)]
    rfl
  generalize rest.takeWhile (· != ")") = inner at hsplit hfound ⊢
  have hlength : index + (inner.length + 2 + after.length) = values.length := by
    have hlength := congrArg List.length hsplit
    simp only [List.length_drop, List.length_append, List.length_cons, List.length_nil] at hlength
    omega
  refine ⟨inner.length + 1, hfound, ?_, ?_, ?_, ?_⟩
  · exact add?_of_lt (by omega) (by omega)
  · exact add?_of_lt (by omega) (by decide)
  · rw [slice?_eq (Nat.le_add_right _ _) (by omega), Nat.add_sub_cancel_left, hsplit,
      List.take_left' (by simp)]
  · rw [← List.drop_drop, hsplit, List.drop_left' (by simp)]

theorem readEntries_eq {degrees : Bool} {limit : Nat} (hvalues : values.length < lengthLimit)
    {entries : List FillEntry} {rest : List String} {index : Nat}
    (hrest : values.drop index = rest) :
    readEntries degrees limit values entries index =
      sound (Card.readEntries degrees limit entries rest) := by
  fun_induction Card.readEntries degrees limit entries rest generalizing index with
  | case1 entries =>
    rw [readEntries_turn, entryTurn, if_neg (Nat.not_lt.mpr (le_length_of_drop_nil hrest))]
    rfl
  | case2 entries rest hunclosed =>
    obtain ⟨hlt, hitem, _⟩ := item?_of_drop hrest
    have hnone : ("(" :: rest).findIdx? (· == ")") = none := by
      have hempty : (rest.dropWhile fun x => !(x == ")")) = [] := hunclosed
      rw [findIdx?_eq, List.dropWhile_cons_of_pos (by decide), hempty]
      rfl
    rw [readEntries_turn, entryTurn, if_pos hlt]
    simp [hitem, from?_eq (Nat.le_of_lt hlt), hrest, hnone, orFault]
  | case3 entries rest close after hclosed ih =>
    obtain ⟨hlt, hitem, _⟩ := item?_of_drop hrest
    obtain ⟨length, hfound, hclose, hnext, hgroup, hafter⟩ := group_of_drop hvalues hrest hclosed
    rw [readEntries_turn, entryTurn, if_pos hlt]
    simp only [hitem, from?_eq (Nat.le_of_lt hlt), hrest, hfound, hclose, hnext, hgroup, orFault,
      step_some, pure_bind, bind_assoc, if_true, sound_ok, sound_bind, readTransformSpec_eq,
      Sum.elim_inr, ih _ hafter]
  | case4 entries token rest hopen ih =>
    obtain ⟨hlt, hitem, hnext⟩ := item?_of_drop hrest
    have hadd : add? index 1 = some (index + 1) :=
      add?_of_lt (by omega) (by decide)
    rw [readEntries_turn, entryTurn, if_pos hlt]
    simp only [hitem, hadd, step_some, pure_bind, bind_assoc, if_neg hopen, sound_bind,
      Sum.elim_inr, ih _ hnext]

theorem readArray_eq (degrees : Bool) {values : List String} (hvalues : values.length < lengthLimit) :
    readArray degrees values = sound (Card.readArray degrees values) := by
  unfold readArray Card.readArray
  have hshort := Card.length_leadingRanges_le values
  have hwords := @Card.isWord_of_mem_leadingRanges values
  generalize Card.leadingRanges values = ranges at hshort hwords
  by_cases hlength : ranges.length = 3
  · obtain ⟨i, j, k, rfl⟩ := List.length_eq_three.mp hlength
    have hthree : 3 ≤ values.length := hshort
    have hwritten : (values.drop 3).length < lengthLimit := by
      rw [List.length_drop]
      omega
    have hdeclared : declaredLength ⟨⟨i.1, i.2⟩, ⟨j.1, j.2⟩, ⟨k.1, k.2⟩, []⟩ = some _ :=
      declaredLength_eq (by
        simp only [FillArray.ranges, List.mem_cons, List.not_mem_nil, or_false]
        rintro r (rfl | rfl | rfl) <;> exact hwords (by simp))
    dsimp only
    rw [if_neg (by simp)]
    simp only [item?, List.getElem?_cons_zero, List.getElem?_cons_succ, step_some, pure_bind,
      hdeclared, sub?_eq hthree, from?_eq hthree, readEntries_eq hwritten List.drop_zero,
      Card.entryLimit, List.length_drop, sound_bind]
    congr 1
    funext entries
    split <;> rfl
  · dsimp only
    rw [if_pos hlength]
    split
    · exact absurd rfl hlength
    · rfl

theorem readFillTransform_eq (degrees : Bool) (rest : List String) :
    readFillTransform degrees rest = sound (Card.readFillTransform degrees rest) := by
  cases rest with
  | nil => rfl
  | cons token rest =>
    have htoken : item? (token :: rest) 0 = some token := rfl
    rw [readFillTransform, if_neg (by simp), htoken, step_some, pure_bind, Card.readFillTransform]
    split
    · rw [readTransformSpec_eq, sound_map]
    · rfl

theorem readFill_eq (degrees : Bool) {values : List String} (hvalues : values.length < lengthLimit) :
    readFill degrees values = sound (Card.readFill degrees values) := by
  cases values with
  | nil => rfl
  | cons first rest =>
    have hrest : from? (first :: rest) 1 = some rest := from?_eq (by simp)
    unfold readFill Card.readFill
    simp only [List.head?_cons, readArray_eq degrees hvalues, hrest, step_some, pure_bind,
      readFillTransform_eq]
    split_ifs <;> simp

end Entries

end TransportDeck.Checked
