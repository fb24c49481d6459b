import TransportDeck.Proofs.Card.CellForms
import TransportDeck.Proofs.Card.Params
import TransportDeck.Proofs.Checked.Fills
import TransportDeck.Proofs.Checked.Tokens

namespace TransportDeck.Checked

open Number

abbrev OnParams := ExceptT CardFault (StateT CellParams Option)

def soundRun (x : Card.OnParams Unit) : OnParams Unit :=
  ExceptT.mk fun p => some (x.run.run p)

def reading {α : Type} (x : ExceptT CardFault Option α) : OnParams α :=
  ExceptT.mk fun p => x.run.map (·, p)

def applyTransform (degrees : Bool) (values : List String) : OnParams Unit := do
  let spec ← reading (readTransformSpec degrees values)
  modify fun p => { p with transform := some spec }

noncomputable def applyFill (degrees : Bool) (values : List String) : OnParams Unit := do
  let fill ← reading (readFill degrees values)
  modify fun p => { p with fill := some fill }

noncomputable def applyParam (keyword : String) (values : List String) : OnParams Unit :=
  match (Card.splitKeyword keyword).1 with
  | "trcl" => applyTransform false values
  | "*trcl" => applyTransform true values
  | "fill" => applyFill false values
  | "*fill" => applyFill true values
  | _ => soundRun (Card.applyParam keyword values)

noncomputable def applyGroup (state : CellParams × List CardFault) (g : String × List String) :
    Option (CellParams × List CardFault) := do
  match ← (applyParam g.1 g.2).run.run state.1 with
  | (.ok _, params) => return (params, state.2)
  | (.error fault, params) => return (params, state.2 ++ [fault])

noncomputable def readParams (ts : List String) : Option (CellParams × List CardFault) := do
  (Card.keywordGroups (← splitTokens ['(', ')'] ts)).foldlM applyGroup ({}, [])

noncomputable def readLike (number : Nat) (ts : List String) :
    ExceptT CardFault Option (Cell × List CardFault) := do
  let base ← sound (orFault .likeIncomplete ts[2]? >>= Card.readId)
  if ts[3]? = some "but" then
    let (params, faults) ← step (readParams (← step (from? ts 4)))
    return ({ number, params, like := some base }, faults)
  else throw .likeWithoutBut

def keywordPlace (ts : List String) (start : Nat) : Option Nat := do
  match (← from? ts start).findIdx? Card.isKeyword with
  | some offset => add? start offset
  | none => return ts.length

noncomputable def readBody (cell : Cell) (ts : List String) (start : Nat) :
    ExceptT CardFault Option (Cell × List CardFault) := do
  let stop ← step (keywordPlace ts start)
  if start = stop then throw .regionMissing
  else
    let words ← step (slice? ts start stop)
    let region ← sound (Card.readRegion (Text.joined " " words).toList)
    let (params, faults) ← step (readParams (← step (from? ts stop)))
    return ({ cell with region, params }, faults)

noncomputable def readFull (number : Nat) (ts : List String) :
    ExceptT CardFault Option (Cell × List CardFault) := do
  let second ← step (item? ts 1)
  let material ← sound (orFault (.number second) (readCardinal? second))
  if material = 0 then readBody { number, material } ts 2
  else
    let density ← sound (orFault .densityMissing ts[2]? >>= Card.readFloat)
    readBody { number, material, density := some density } ts 3

noncomputable def readNumbered (number : Nat) (ts : List String) :
    ExceptT CardFault Option (Cell × List CardFault) := do
  let second ← step (item? ts 1)
  if second = "like" then readLike number ts else readFull number ts

noncomputable def readCell (text : List Char) : Option (CardResult Cell) := do
  let ts ← tokens ['='] text
  if ts.length < 2 then return .error ⟨none, .cellTooShort⟩
  else
    let first ← item? ts 0
    match readId? first with
    | none => return .error ⟨some "cell card", .number first⟩
    | some number => return onCard s!"cell {number}" (← (readNumbered number ts).run)

def bodyOf (cell : Cell) (words : List String) : Except CardFault (Cell × List CardFault) :=
  let regionTokens := words.takeWhile fun t => !Card.isKeyword t
  if regionTokens.isEmpty then .error .regionMissing
  else
    (Card.readRegion (Text.joined " " regionTokens).toList).map fun region =>
      let (params, faults) := Card.readParams (words.dropWhile fun t => !Card.isKeyword t)
      ({ cell with region, params }, faults)

section Params

theorem applyTransform_eq (degrees : Bool) (values : List String) :
    applyTransform degrees values = soundRun (Card.applyTransform degrees values) := by
  rw [applyTransform, readTransformSpec_eq, Card.applyTransform]
  cases Card.readTransformSpec degrees values <;> rfl

theorem applyFill_eq (degrees : Bool) {values : List String} (h : values.length < lengthLimit) :
    applyFill degrees values = soundRun (Card.applyFill degrees values) := by
  rw [applyFill, readFill_eq _ h, Card.applyFill]
  cases Card.readFill degrees values <;> rfl

theorem applyParam_eq (keyword : String) {values : List String} (h : values.length < lengthLimit) :
    applyParam keyword values = soundRun (Card.applyParam keyword values) := by
  unfold applyParam
  split
  · next hname => simp only [Card.applyParam, hname, applyTransform_eq]
  · next hname => simp only [Card.applyParam, hname, applyTransform_eq]
  · next hname => simp only [Card.applyParam, hname, applyFill_eq _ h]
  · next hname => simp only [Card.applyParam, hname, applyFill_eq _ h]
  · rfl

theorem applyGroup_eq (state : CellParams × List CardFault) {g : String × List String}
    (h : g.2.length < lengthLimit) : applyGroup state g = some (Card.applyGroup state g) := by
  rw [applyGroup, applyParam_eq _ h, Card.applyGroup]
  have hrun : (soundRun (Card.applyParam g.1 g.2)).run.run state.1 =
      some ((Card.applyParam g.1 g.2).run.run state.1) := rfl
  rw [hrun, Option.bind_eq_bind, Option.bind_some]
  rcases (Card.applyParam g.1 g.2).run.run state.1 with ⟨fault | done, params⟩ <;> rfl

/-- The parameters after three tokens at least. -/
theorem readParams_drop {ts : List String} (h : TokensFit ts) {n : Nat} (hn : 3 ≤ n)
    (hle : n ≤ ts.length) : readParams (ts.drop n) = some (Card.readParams (ts.drop n)) := by
  have hshort : (Text.splitTokens ['(', ')'] (ts.drop n)).length < lengthLimit := by
    have hdrop := Text.tokenBytes_append (ts.take n) (ts.drop n)
    have hsplit := Text.length_splitTokens_le ['(', ')'] (ts.drop n)
    have hbytes := h.bytes_lt
    rw [List.take_append_drop] at hdrop
    omega
  rw [readParams, splitTokens_drop h hn hle, Card.readParams, Card.readGroups, Card.cellGroups]
  generalize Text.splitTokens ['(', ')'] (ts.drop n) = cut at hshort
  apply foldlM_eq_some
  intro state g hg
  have hvalues := Card.length_le_of_mem_groupTokens hg
  have hfilter := List.length_filter_le (· != "=") cut
  exact applyGroup_eq state (by omega)

end Params

section Cells

variable {ts : List String}

theorem readLike_eq (number : Nat) {first : String} {rest : List String}
    (hts : ts = first :: "like" :: rest) (h : TokensFit ts) :
    readLike number ts = sound (Card.readNumbered number "like" rest) := by
  subst hts
  rw [readLike, Card.readNumbered, if_pos rfl]
  cases rest with
  | nil => rfl
  | cons base rest =>
    have hbase : (first :: "like" :: base :: rest)[2]? = some base := rfl
    have hnext : (first :: "like" :: base :: rest)[3]? = rest[0]? := rfl
    rw [hbase, hnext, Card.readLike]
    cases hid : Card.readId base with
    | error fault => simp [orFault, hid]
    | ok id =>
      cases rest with
      | nil => simp [orFault, hid]
      | cons next params =>
        by_cases hbut : next = "but"
        · subst hbut
          have hparams := readParams_drop h (show 3 ≤ 4 by omega) (by simp)
          have hfrom : from? (first :: "like" :: base :: "but" :: params) 4 = some params :=
            from?_eq (by simp)
          change readParams params = some (Card.readParams params) at hparams
          simp [orFault, hid, hfrom, hparams]
        · simp [orFault, hid, hbut]

theorem keywordPlace_eq {start : Nat} {words : List String} (hwords : ts.drop start = words)
    (hstart : start ≤ ts.length) (hts : ts.length < lengthLimit) :
    keywordPlace ts start =
      some (start + (words.takeWhile fun t => !Card.isKeyword t).length) := by
  have hsplit : words.takeWhile (fun t => !Card.isKeyword t) ++
      words.dropWhile (fun t => !Card.isKeyword t) = words := List.takeWhile_append_dropWhile
  have hlength : start + words.length = ts.length := length_of_drop hwords hstart
  rw [keywordPlace, from?_eq hstart, hwords, Option.bind_eq_bind, Option.bind_some, findIdx?_eq]
  generalize words.takeWhile (fun t => !Card.isKeyword t) = region at hsplit
  generalize words.dropWhile (fun t => !Card.isKeyword t) = after at hsplit
  rw [← hsplit, List.length_append] at hlength
  cases after with
  | nil => simp [← hlength]
  | cons next more =>
    have hadd : add? start region.length = some (start + region.length) :=
      add?_of_lt (by omega) (by omega)
    simp [hadd]

theorem readBody_eq (cell : Cell) {start : Nat} {words : List String}
    (hwords : ts.drop start = words) (hstart : start ≤ ts.length)
    (h : TokensFit ts) (hfirst : 2 ≤ start) :
    readBody cell ts start = sound (bodyOf cell words) := by
  have hsplit : words.takeWhile (fun t => !Card.isKeyword t) ++
      words.dropWhile (fun t => !Card.isKeyword t) = words := List.takeWhile_append_dropWhile
  have hlength : start + words.length = ts.length := length_of_drop hwords hstart
  have hstop : keywordPlace ts start =
      some (start + (words.takeWhile fun t => !Card.isKeyword t).length) :=
    keywordPlace_eq hwords hstart h.length_lt
  rw [readBody, hstop, step_some, pure_bind, bodyOf]
  dsimp only
  generalize words.takeWhile (fun t => !Card.isKeyword t) = region at hsplit
  generalize words.dropWhile (fun t => !Card.isKeyword t) = after at hsplit
  have hregion : start + (region.length + after.length) = ts.length := by
    rw [← hlength, ← hsplit, List.length_append]
  have hslice : slice? ts start (start + region.length) = some region := by
    rw [slice?_eq (Nat.le_add_right _ _) (by omega), Nat.add_sub_cancel_left, hwords, ← hsplit,
      List.take_left]
  have hafter : from? ts (start + region.length) = some after := by
    rw [from?_eq (by omega), ← List.drop_drop, hwords, ← hsplit, List.drop_left]
  cases region with
  | nil =>
    rw [if_pos (by simp)]
    rfl
  | cons word more =>
    have hparams : readParams after = some (Card.readParams after) := by
      have hplace : start + (word :: more).length ≤ ts.length := by omega
      have hthree : 3 ≤ start + (word :: more).length := by
        rw [List.length_cons]
        omega
      have hdrop := readParams_drop h hthree hplace
      rwa [← List.drop_drop, hwords, ← hsplit, List.drop_left] at hdrop
    rw [if_neg (by simp)]
    simp only [hslice, hafter, hparams, step_some, pure_bind, List.isEmpty_cons]
    cases Card.readRegion (Text.joined " " (word :: more)).toList with
    | error fault => rfl
    | ok region => rfl

theorem readBack_eq_bodyOf (number material : Nat) (density : Option Float) (words : List String) :
    Card.readBack number material density words = bodyOf { number, material, density } words := by
  unfold Card.readBack bodyOf
  dsimp only
  split
  · rfl
  · cases Card.readRegion
      (Text.joined " " (words.takeWhile fun t => !Card.isKeyword t)).toList <;> rfl

theorem readFull_eq (number : Nat) {first second : String} {rest : List String}
    (hts : ts = first :: second :: rest) (h : TokensFit ts) :
    readFull number ts = sound (Card.readFull number second rest) := by
  subst hts
  have hsecond : item? (first :: second :: rest) 1 = some second := rfl
  rw [readFull, hsecond, Card.readFull_eq, step_some, pure_bind]
  simp only [readBack_eq_bodyOf]
  refine bind_sound fun material => ?_
  by_cases hvoid : material = 0
  · rw [if_pos hvoid, if_pos hvoid]
    exact readBody_eq { number, material } rfl (by simp) h (by omega)
  · rw [if_neg hvoid, if_neg hvoid]
    cases rest with
    | nil => rfl
    | cons token rest =>
      change sound (Card.readFloat token) >>= _ = _
      refine bind_sound fun density => ?_
      exact readBody_eq { number, material, density := some density } rfl (by simp) h (by omega)

theorem readNumbered_eq (number : Nat) {first second : String} {rest : List String}
    (hts : ts = first :: second :: rest) (h : TokensFit ts) :
    readNumbered number ts = sound (Card.readNumbered number second rest) := by
  have hsecond : item? ts 1 = some second := by
    rw [hts]
    rfl
  rw [readNumbered, hsecond, step_some, pure_bind]
  by_cases hlike : second = "like"
  · subst hlike
    rw [if_pos rfl, readLike_eq number hts h]
  · rw [if_neg hlike, readFull_eq number hts h, Card.readNumbered, if_neg hlike]

theorem readCell_eq {text : List Char} (h : Text.bytes text < lengthLimit) :
    readCell text = some (Card.readCell text) := by
  have hfit := tokensFit_tokens ['='] h
  rw [readCell, tokens_eq h, Option.bind_eq_bind, Option.bind_some, Card.readCell]
  generalize Text.tokens ['='] text = ts at hfit
  match ts with
  | [] => rfl
  | [_] => rfl
  | first :: second :: rest =>
    have hfirst : item? (first :: second :: rest) 0 = some first := rfl
    rw [if_neg (by simp), hfirst, Option.bind_eq_bind, Option.bind_some]
    dsimp only
    cases readId? first with
    | none => rfl
    | some number =>
      dsimp only
      rw [readNumbered_eq number rfl hfit, run_sound]
      rfl

end Cells

end TransportDeck.Checked
