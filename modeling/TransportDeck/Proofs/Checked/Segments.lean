import TransportDeck.Proofs.Blocks.CardSizes
import TransportDeck.Proofs.Blocks.Outcomes
import TransportDeck.Proofs.Checked.Lines
import TransportDeck.Proofs.Reading.CellCards

namespace TransportDeck.Checked

def messageText (line : List Char) : Option (Option (List Char)) :=
  let trimmed := Text.trimStart line
  match cutAt? trimmed 8 with
  | none => some none
  | some (keyword, _) =>
    if Text.lower keyword = Blocks.messageKeyword then do
      let (_, rest) ← cutAt? trimmed 8
      return some rest
    else some none

def pushMessage (messages : List String) (line : List Char) : List String :=
  if Text.isBlankText line then messages else messages ++ [String.ofList (Text.trim line)]

def messageTurn (lines : List (List Char)) :
    List String × Nat → Option (List String × Nat ⊕ List String × Nat)
  | (messages, index) => do
    if index < lines.length then
      let line ← item? lines index
      if Text.isBlankText line then return .inl (messages, index)
      else return .inr (pushMessage messages line, ← add? index 1)
    else return .inl (messages, index)

noncomputable def readMessages (lines : List (List Char)) (messages : List String) (index : Nat) :
    Option (List String × Nat) :=
  loop (messageTurn lines) (messages, index)

noncomputable def messageBlock (lines : List (List Char)) : Option (List String × Nat) :=
  match lines.head? with
  | none => some ([], 0)
  | some first => do
    match ← messageText first with
    | none => return ([], 0)
    | some rest =>
      let (messages, index) ← readMessages lines (pushMessage [] rest) 1
      return (messages, ← add? index 1)

def blankTurn (lines : List (List Char)) (index : Nat) : Option (Nat ⊕ Nat) := do
  if index < lines.length then
    let line ← item? lines index
    if Text.isBlankText line then return .inr (← add? index 1) else return .inl index
  else return .inl index

noncomputable def skipBlank (lines : List (List Char)) (index : Nat) : Option Nat :=
  loop (blankTurn lines) index

def pushLine (blocks : List (List PhysicalLine)) (current : Nat) (line : PhysicalLine) :
    Option (List (List PhysicalLine)) := do
  return blocks.set current ((← item? blocks current) ++ [line])

/-- Puts a line into the current block, or goes on to the next block past the blank lines. The state
is the blocks, the number of the current one and the place of the line. -/
noncomputable def blockTurn (lines : List (List Char)) :
    List (List PhysicalLine) × Nat × Nat →
      ExceptT LayoutFault Option (List (List PhysicalLine) ⊕ List (List PhysicalLine) × Nat × Nat)
  | (blocks, current, index) => do
    if index < lines.length then
      let line ← step (item? lines index)
      if Text.isBlankText line then
        let next ← step (skipBlank lines index)
        if current = 2 then
          if next < lines.length then
            let _ ← step (sub? lines.length next)
          return .inl blocks
        else
          let run ← step (sub? next index)
          if 1 < run then
            let name ← step (item? [BlockName.cells, .surfaces] current)
            throw (.longSeparator (← step (add? index 2)) run name)
          else return .inr (blocks, ← step (add? current 1), next)
      else
        let number ← step (add? index 1)
        let blocks ← step (pushLine blocks current ⟨number, line⟩)
        return .inr (blocks, current, ← step (add? index 1))
    else if current < 2 then
      throw (.missingBlocks (max lines.length 1) (← step (add? current 1)))
    else return .inl blocks

noncomputable def splitBlocks (lines : List (List Char)) (blocks : List (List PhysicalLine))
    (current index : Nat) : ExceptT LayoutFault Option (List (List PhysicalLine)) :=
  loopOr (blockTurn lines) (blocks, current, index)

def blockCards (lastLine : Nat) (name : BlockName) (lines : List PhysicalLine) :
    ExceptT LayoutFault Option (List LogicalCard) := do
  let cards ← step (joinLines lines)
  if cards.isEmpty then
    throw (.emptyBlock ((lines.head?.map PhysicalLine.number).getD lastLine) name)
  else return cards

noncomputable def segment (lines : List (List Char)) : ExceptT LayoutFault Option Blocks := do
  let (messages, index) ← step (messageBlock lines)
  match lines[index]? with
  | none => throw (.missingTitle (← step (add? index 1)))
  | some title =>
    if Text.isBlankText title then throw (.missingTitle (← step (add? index 1)))
    else
      let titleLine ← step (add? index 1)
      let blocks ← splitBlocks lines [[], [], []] 0 (← step (add? index 1))
      let lastLine := max lines.length 1
      return {
        title := String.ofList (Text.trim title)
        titleLine
        messages
        cells := ← blockCards lastLine .cells (← step (item? blocks 0))
        surfaces := ← blockCards lastLine .surfaces (← step (item? blocks 1))
        data := ← blockCards lastLine .data (← step (item? blocks 2)) }

section Messages

variable {lines : List (List Char)}

theorem bytes_keyword {word : List Char} (h : Text.lower word = Blocks.messageKeyword) :
    Text.bytes word = 8 := by
  rw [← Text.bytes_lower, h]
  rfl

theorem messageText_eq (line : List Char) : messageText line = some (Blocks.messageText? line) := by
  unfold messageText Blocks.messageText?
  have hkeyword : Blocks.messageKeyword.length = 8 := rfl
  rw [hkeyword]
  generalize Text.trimStart line = trimmed
  dsimp only
  split_ifs with hword
  · have hcut := cutAt?_append (trimmed.take 8) (trimmed.drop 8)
    rw [List.take_append_drop, bytes_keyword hword] at hcut
    simp [hcut, hword]
  · cases hcut : cutAt? trimmed 8 with
    | none => rfl
    | some parts =>
      obtain ⟨keyword, rest⟩ := parts
      have hother : Text.lower keyword ≠ Blocks.messageKeyword := by
        -- a keyword before byte eight would be the first eight characters
        intro hlower
        have hlength := congrArg List.length hlower
        rw [Text.lower, List.length_map, hkeyword] at hlength
        apply hword
        rw [← append_of_cutAt? hcut, ← hlength, List.take_left]
        exact hlower
      simp [hother]

theorem readMessages_turn (messages : List String) (index : Nat) :
    readMessages lines messages index = messageTurn lines (messages, index) >>=
      Sum.elim some fun s => readMessages lines s.1 s.2 :=
  loop_eq _ _

theorem readMessages_eq (hlines : lines.length < lengthLimit) {rest : List (List Char)}
    {index : Nat} (hrest : lines.drop index = rest) (messages : List String) :
    readMessages lines messages index =
      some ((rest.takeWhile fun l => !Text.isBlankText l).foldl pushMessage messages,
        index + (rest.takeWhile fun l => !Text.isBlankText l).length) := by
  induction rest generalizing index messages with
  | nil =>
    rw [readMessages_turn, messageTurn, if_neg (Nat.not_lt.mpr (le_length_of_drop_nil hrest))]
    rfl
  | cons line rest ih =>
    obtain ⟨hlt, hitem, hnext⟩ := item?_of_drop hrest
    have hadd : add? index 1 = some (index + 1) :=
      add?_of_lt (by omega) (by decide)
    rw [readMessages_turn, messageTurn, if_pos hlt, hitem]
    by_cases hblank : Text.isBlankText line
    · simp [hblank]
    · simp [hblank, hadd, ih hnext, Nat.add_assoc, Nat.add_comm 1]

theorem foldl_pushMessage (lines : List (List Char)) (messages : List String) :
    lines.foldl pushMessage messages = messages ++
      (lines.filter fun l => !Text.isBlankText l).map fun l => String.ofList (Text.trim l) := by
  induction lines generalizing messages with
  | nil => simp
  | cons line lines ih =>
    rw [List.foldl_cons, ih, pushMessage]
    by_cases hblank : Text.isBlankText line <;> simp [hblank]

theorem messageBlock_eq (hlines : lines.length < lengthLimit) :
    messageBlock lines = some (Blocks.messageTexts lines, Blocks.messageLength lines) := by
  cases lines with
  | nil => rfl
  | cons first rest =>
    unfold messageBlock Blocks.messageTexts Blocks.messageLength
    rw [List.head?_cons]
    dsimp only
    rw [messageText_eq]
    cases hmessage : Blocks.messageText? first with
    | none => rfl
    | some text =>
      have hread := readMessages_eq hlines (List.drop_one (l := first :: rest)) (pushMessage [] text)
      rw [List.tail_cons] at hread
      have hshort := (rest.takeWhile_sublist fun l => !Text.isBlankText l).length_le
      have hadd := @add?_eq (1 + (rest.takeWhile fun l => !Text.isBlankText l).length) 1
        (by simp only [lengthLimit, maxWord, List.length_cons] at *; omega)
      simp only [Option.bind_eq_bind, Option.bind_some, hread, hadd, Option.isSome_some, if_true]
      rw [← List.foldl_cons, foldl_pushMessage, List.nil_append, Nat.add_comm 1]
      rfl

end Messages

section Splitting

variable {lines : List (List Char)} {index current : Nat} {blocks : List (List PhysicalLine)}

/-- Where the loop has come to place `index`: the line there, and the lines after it. -/
theorem item?_of_drop_numbered {line : PhysicalLine} {rest : List PhysicalLine}
    (h : (Blocks.numbered lines).drop index = line :: rest) :
    index < lines.length ∧ item? lines index = some line.text ∧ line.number = index + 1 ∧
      (Blocks.numbered lines).drop (index + 1) = rest := by
  obtain ⟨hlt, hitem, hnext⟩ := item?_of_drop h
  rw [item?, Blocks.numbered, List.getElem?_mapIdx] at hitem
  obtain ⟨text, htext, rfl⟩ := Option.map_eq_some_iff.mp hitem
  rw [Blocks.numbered, List.length_mapIdx] at hlt
  exact ⟨hlt, htext, rfl, hnext⟩

theorem le_of_drop_numbered_nil (h : (Blocks.numbered lines).drop index = []) :
    lines.length ≤ index := by
  have hle := le_length_of_drop_nil h
  rwa [Blocks.numbered, List.length_mapIdx] at hle

theorem drop_numbered_append {before rest : List PhysicalLine}
    (h : (Blocks.numbered lines).drop index = before ++ rest) :
    (Blocks.numbered lines).drop (index + before.length) = rest := by
  rw [← List.drop_drop, h, List.drop_left]

theorem length_of_drop_numbered {rest : List PhysicalLine} (hindex : index ≤ lines.length)
    (h : (Blocks.numbered lines).drop index = rest) : index + rest.length = lines.length := by
  have hlines : (Blocks.numbered lines).length = lines.length := List.length_mapIdx
  rw [← hlines]
  exact length_of_drop h (hlines ▸ hindex)

theorem skipBlank_turn (index : Nat) :
    skipBlank lines index = blankTurn lines index >>= Sum.elim some (skipBlank lines) :=
  loop_eq _ _

theorem skipBlank_eq (hlines : lines.length < lengthLimit) {run after : List PhysicalLine}
    (hdrop : (Blocks.numbered lines).drop index = run ++ after)
    (hrun : ∀ l ∈ run, l.isBlank = true) (hafter : ∀ l ∈ after.head?, l.isBlank = false) :
    skipBlank lines index = some (index + run.length) := by
  induction run generalizing index with
  | nil =>
    rw [skipBlank_turn, blankTurn]
    cases after with
    | nil => rw [if_neg (Nat.not_lt.mpr (le_of_drop_numbered_nil hdrop))]; rfl
    | cons line after =>
      obtain ⟨hlt, hitem, _, _⟩ := item?_of_drop_numbered hdrop
      have hblank : Text.isBlankText line.text = false := hafter line rfl
      simp [hlt, hitem, hblank]
  | cons line run ih =>
    obtain ⟨hlt, hitem, _, hnext⟩ := item?_of_drop_numbered hdrop
    have hblank : Text.isBlankText line.text = true := hrun line List.mem_cons_self
    have hadd : add? index 1 = some (index + 1) :=
      add?_of_lt (by omega) (by decide)
    have hrest := ih hnext fun l hl => hrun l (List.mem_cons_of_mem line hl)
    rw [skipBlank_turn, blankTurn, if_pos hlt]
    simp [hitem, hblank, hadd, hrest, Nat.add_assoc, Nat.add_comm 1]

theorem splitBlocks_turn (blocks : List (List PhysicalLine)) (current index : Nat) :
    splitBlocks lines blocks current index = blockTurn lines (blocks, current, index) >>=
      Sum.elim pure fun s => splitBlocks lines s.1 s.2.1 s.2.2 :=
  loopOr_eq _ _

/-- Lines that are not blank go to the current block. -/
theorem splitBlocks_unbroken (hlines : lines.length < lengthLimit)
    {before rest block : List PhysicalLine}
    (hdrop : (Blocks.numbered lines).drop index = before ++ rest) (hbefore : Unbroken before)
    (hblock : blocks[current]? = some block) :
    splitBlocks lines blocks current index =
      splitBlocks lines (blocks.set current (block ++ before)) current (index + before.length) := by
  induction before generalizing index blocks block with
  | nil =>
    obtain ⟨hcurrent, rfl⟩ := List.getElem?_eq_some_iff.mp hblock
    rw [List.append_nil, List.set_getElem_self]
    rfl
  | cons line before ih =>
    obtain ⟨hlt, hitem, hnumber, hnext⟩ := item?_of_drop_numbered hdrop
    have hblank : Text.isBlankText line.text = false := hbefore line List.mem_cons_self
    have hadd : add? index 1 = some (index + 1) :=
      add?_of_lt (by omega) (by decide)
    have hpush : pushLine blocks current ⟨index + 1, line.text⟩ =
        some (blocks.set current (block ++ [line])) := by
      rw [← hnumber, pushLine, item?, hblock]
      rfl
    have hcurrent : current < blocks.length := (List.getElem?_eq_some_iff.mp hblock).1
    have hset : (blocks.set current (block ++ [line]))[current]? = some (block ++ [line]) :=
      List.getElem?_set_self hcurrent
    have hrest := ih hnext (fun l hl => hbefore l (List.mem_cons_of_mem line hl)) hset
    rw [splitBlocks_turn, blockTurn, if_pos hlt]
    simp [hitem, hblank, hadd, hpush, hrest, List.set_set, Nat.add_assoc, Nat.add_comm 1]

/-- The lines before the first blank ones go to the current block, and the blank lines are skipped
as one. -/
theorem splitBlocks_firstRun (hlines : lines.length < lengthLimit) (hindex : index ≤ lines.length)
    {before run after block : List PhysicalLine}
    (hfirst : FirstRun ((Blocks.numbered lines).drop index) before run after)
    (hblock : blocks[current]? = some block) :
    ∃ place, place + (run.length + after.length) = lines.length ∧
      (Blocks.numbered lines).drop place = run ++ after ∧
      skipBlank lines place = some (place + run.length) ∧
      splitBlocks lines blocks current index =
        splitBlocks lines (blocks.set current (block ++ before)) current place := by
  have hdrop := drop_numbered_append hfirst.joined
  have hplace : index + before.length ≤ lines.length := by
    have hlength := length_of_drop_numbered hindex hfirst.joined
    rw [List.length_append] at hlength
    omega
  have hlength := length_of_drop_numbered hplace hdrop
  rw [List.length_append] at hlength
  exact ⟨index + before.length, hlength, hdrop,
    skipBlank_eq hlines hdrop hfirst.blank hfirst.maximal,
    splitBlocks_unbroken hlines hfirst.joined hfirst.unbroken hblock⟩

/-- A block and its separator are taken off, as far as there is a further block. -/
theorem splitBlocks_takeBlock (hlines : lines.length < lengthLimit) (hindex : index ≤ lines.length)
    {name : BlockName} (hname : [BlockName.cells, .surfaces][current]? = some name)
    (hblock : blocks[current]? = some []) :
    splitBlocks lines blocks current index =
      sound (Blocks.takeBlock (max lines.length 1) (current + 1) name
        ((Blocks.numbered lines).drop index)) >>= fun (block, rest) =>
          splitBlocks lines (blocks.set current block) (current + 1)
            (lines.length - rest.length) := by
  have hcurrent : current < 2 := (List.getElem?_eq_some_iff.mp hname).1
  have hfound : add? current 1 = some (current + 1) :=
    add?_eq (by simp only [maxWord]; omega)
  rcases unbroken_or_exists_firstRun ((Blocks.numbered lines).drop index) with
    hall | ⟨before, run, after, hfirst⟩
  · have hlength := length_of_drop_numbered hindex rfl
    rw [Blocks.takeBlock_unbroken _ _ _ hall,
      splitBlocks_unbroken hlines (List.append_nil _).symm hall hblock, hlength, splitBlocks_turn,
      blockTurn, if_neg (Nat.lt_irrefl _), if_pos hcurrent, hfound]
    simp
  · obtain ⟨place, hlength, hdrop, hskip, hsplit⟩ := splitBlocks_firstRun hlines hindex hfirst hblock
    rw [hsplit, List.nil_append]
    have hsub : sub? (place + run.length) place = some run.length := by
      rw [sub?_eq (Nat.le_add_right _ _), Nat.add_sub_cancel_left]
    cases run with
    | nil => exact absurd rfl hfirst.ne_nil
    | cons blank more =>
      obtain ⟨hlt, hitem, hnumber, _⟩ := item?_of_drop_numbered hdrop
      have hblank : Text.isBlankText blank.text = true := hfirst.blank blank List.mem_cons_self
      have hadd : add? place 2 = some (place + 2) := add?_of_lt (by omega) (by decide)
      rw [splitBlocks_turn, blockTurn, if_pos hlt]
      cases more with
      | nil =>
        have hafter : lines.length - after.length = place + 1 := by
          simp only [List.length_cons, List.length_nil] at hlength
          omega
        rw [Blocks.takeBlock_single _ _ _ hfirst rfl]
        simp only [List.length_cons, List.length_nil] at hskip hsub
        simp [hitem, hblank, hskip, hsub, hfound, hafter, Nat.ne_of_lt hcurrent]
      | cons second more =>
        have hblockName : item? [BlockName.cells, .surfaces] current = some name := hname
        rw [Blocks.takeBlock_longRun _ _ _ hfirst, hnumber]
        simp only [List.length_cons] at hskip hsub
        simp [hitem, hblank, hskip, hsub, hadd, hblockName, Nat.ne_of_lt hcurrent]

/-- The last block goes on to a blank line or to the end of the text. -/
theorem splitBlocks_last (hlines : lines.length < lengthLimit) (hindex : index ≤ lines.length)
    (hblock : blocks[2]? = some []) :
    splitBlocks lines blocks 2 index = pure (blocks.set 2
      (((Blocks.numbered lines).drop index).takeWhile fun l => !PhysicalLine.isBlank l)) := by
  rcases unbroken_or_exists_firstRun ((Blocks.numbered lines).drop index) with
    hall | ⟨before, run, after, hfirst⟩
  · have hlength := length_of_drop_numbered hindex rfl
    rw [hall.takeWhile_eq, splitBlocks_unbroken hlines (List.append_nil _).symm hall hblock, hlength,
      splitBlocks_turn, blockTurn, if_neg (Nat.lt_irrefl _)]
    rfl
  · obtain ⟨place, hlength, hdrop, hskip, hsplit⟩ := splitBlocks_firstRun hlines hindex hfirst hblock
    rw [hfirst.takeWhile_dropWhile.1, hsplit, List.nil_append]
    have hsub := sub?_eq (show place + run.length ≤ lines.length by omega)
    cases run with
    | nil => exact absurd rfl hfirst.ne_nil
    | cons blank more =>
      obtain ⟨hlt, hitem, _, _⟩ := item?_of_drop_numbered hdrop
      have hblank : Text.isBlankText blank.text = true := hfirst.blank blank List.mem_cons_self
      rw [List.length_cons] at hskip hsub
      rw [splitBlocks_turn, blockTurn, if_pos hlt]
      simp [hitem, hblank, hskip, hsub]

theorem blockCards_eq {block : List PhysicalLine} (h : ∀ l ∈ block, LineFits l.text)
    (lastLine : Nat) (name : BlockName) :
    blockCards lastLine name block = sound (Blocks.blockCards lastLine name block) := by
  rw [blockCards, joinLines_eq h, Blocks.blockCards, step_some, pure_bind]
  split <;> rfl

end Splitting

section Segments

variable {lines : List (List Char)}

theorem lineFits_of_sublist (hfits : ∀ line ∈ lines, LineFits line) {block : List PhysicalLine}
    (hblock : block.Sublist (Blocks.numbered lines)) : ∀ l ∈ block, LineFits l.text := by
  intro l hl
  have hmem : l.text ∈ (Blocks.numbered lines).map (·.text) :=
    List.mem_map_of_mem (hblock.subset hl)
  rw [Blocks.map_text_numbered] at hmem
  exact hfits _ hmem

theorem drop_of_suffix {rest : List PhysicalLine} {n : Nat}
    (h : rest <:+ (Blocks.numbered lines).drop n) :
    (Blocks.numbered lines).drop (lines.length - rest.length) = rest := by
  have hsuffix := List.suffix_iff_eq_drop.mp (h.trans (List.drop_suffix n _))
  rw [Blocks.numbered, List.length_mapIdx] at hsuffix
  exact hsuffix.symm

theorem splitBlocks_eq (hlines : lines.length < lengthLimit) {index : Nat}
    (hindex : index ≤ lines.length) :
    splitBlocks lines [[], [], []] 0 index =
      sound (Blocks.takeBlocks (max lines.length 1) ((Blocks.numbered lines).drop index)) >>=
        fun (cells, surfaces, data) => pure [cells, surfaces, data] := by
  have hfirst : [BlockName.cells, .surfaces][0]? = some .cells := rfl
  have hsecond : [BlockName.cells, .surfaces][1]? = some .surfaces := rfl
  rw [splitBlocks_takeBlock hlines hindex hfirst rfl, Blocks.takeBlocks]
  cases hcells : Blocks.takeBlock (max lines.length 1) 1 .cells
    ((Blocks.numbered lines).drop index) with
  | error fault => simp
  | ok taken =>
    obtain ⟨cells, rest⟩ := taken
    have hrest := drop_of_suffix (Blocks.takeBlock_sublist hcells).2
    simp only [sound_ok, sound_bind, pure_bind, List.set_cons_zero]
    rw [splitBlocks_takeBlock hlines (Nat.sub_le _ _) hsecond rfl, hrest]
    cases hsurfaces : Blocks.takeBlock (max lines.length 1) 2 .surfaces rest with
    | error fault => simp
    | ok taken =>
      obtain ⟨surfaces, last⟩ := taken
      have hlast := (Blocks.takeBlock_sublist hsurfaces).2.trans (Blocks.takeBlock_sublist hcells).2
      simp only [sound_ok, sound_pure, pure_bind]
      rw [splitBlocks_last hlines (Nat.sub_le _ _) rfl, drop_of_suffix hlast]
      rfl

/-- The division of the lines never stops, and it is the division of the deck. -/
theorem segment_eq (hlines : lines.length < lengthLimit) (hfits : ∀ line ∈ lines, LineFits line) :
    segment lines = sound (Blocks.ofLines lines) := by
  have hstart : Blocks.messageLength lines ≤ lines.length + 1 := by
    cases lines with
    | nil => exact Nat.zero_le _
    | cons first rest =>
      have hshort := (rest.takeWhile_sublist fun l => !Text.isBlankText l).length_le
      rw [Blocks.messageLength, List.length_cons]
      split <;> omega
  have hadd : add? (Blocks.messageLength lines) 1 = some (Blocks.messageLength lines + 1) :=
    add?_eq (by simp only [lengthLimit, maxWord] at *; omega)
  have hhead := Blocks.head?_drop_numbered lines (Blocks.messageLength lines)
  rw [segment, messageBlock_eq hlines]
  simp only [step_some, pure_bind, hadd]
  cases htitle : lines[Blocks.messageLength lines]? with
  | none =>
    rw [htitle] at hhead
    rw [Blocks.ofLines_untitled rfl fun title h => by rw [hhead] at h; cases h]
    rfl
  | some title =>
    rw [htitle] at hhead
    dsimp only
    by_cases hblank : Text.isBlankText title = true
    · have huntitled : Blocks.Untitled ((Blocks.numbered lines).drop (Blocks.messageLength lines)) := by
        intro line hline
        rw [hhead] at hline
        cases hline
        exact hblank
      rw [Blocks.ofLines_untitled rfl huntitled, if_pos hblank]
      rfl
    have hindex : Blocks.messageLength lines + 1 ≤ lines.length :=
      (List.getElem?_eq_some_iff.mp htitle).1
    obtain ⟨body, hbody⟩ := List.head?_eq_some_iff.mp hhead
    have hdrop : (Blocks.numbered lines).drop (Blocks.messageLength lines + 1) = body := by
      rw [← List.drop_drop, hbody]
      rfl
    rw [if_neg hblank, Blocks.ofLines_titled hbody.symm (Bool.eq_false_iff.mpr hblank),
      splitBlocks_eq hlines hindex, hdrop]
    cases hblocks : Blocks.takeBlocks (max lines.length 1) body with
    | error fault => simp
    | ok blocks =>
      obtain ⟨cells, surfaces, data⟩ := blocks
      obtain ⟨hcells, hsurfaces, hdata⟩ := Blocks.takeBlocks_sublist hblocks
      have hbody : body.Sublist (Blocks.numbered lines) := hdrop ▸ List.drop_sublist _ _
      have hcellLines := lineFits_of_sublist hfits (hcells.trans hbody)
      have hsurfaceLines := lineFits_of_sublist hfits (hsurfaces.trans hbody)
      have hdataLines := lineFits_of_sublist hfits (hdata.trans hbody)
      simp [item?, Blocks.withCards, blockCards_eq hcellLines, blockCards_eq hsurfaceLines,
        blockCards_eq hdataLines]

end Segments

end TransportDeck.Checked
