import TransportDeck.Blocks
import TransportDeck.Proofs.LogicalCard.LetterCase

namespace TransportDeck

def Blocks.lower (blocks : Blocks) : Blocks where
  title := Text.lowered blocks.title
  titleLine := blocks.titleLine
  messages := blocks.messages.map Text.lowered
  cells := blocks.cells.map .lower
  surfaces := blocks.surfaces.map .lower
  data := blocks.data.map .lower

namespace Blocks

section Messages

theorem messageText?_lower (line : List Char) :
    messageText? (Text.lower line) = (messageText? line).map Text.lower := by
  have hkeyword : Text.lower ((Text.lower (Text.trimStart line)).take messageKeyword.length) =
      Text.lower ((Text.trimStart line).take messageKeyword.length) := by
    have htake : (Text.lower (Text.trimStart line)).take messageKeyword.length =
        Text.lower ((Text.trimStart line).take messageKeyword.length) := List.map_take.symm
    rw [htake, Text.lower_lower]
  unfold messageText?
  simp only [Text.trimStart_lower, hkeyword]
  split
  · exact congrArg some List.map_drop.symm
  · rfl

theorem notBlankText_comp_lower :
    (fun l => !Text.isBlankText l) ∘ Text.lower = fun l => !Text.isBlankText l :=
  funext fun line => congrArg (! ·) (Text.isBlankText_lower line)

/-- The lines before the first blank one. -/
theorem takeWhile_notBlank_lower (lines : List (List Char)) :
    (lines.map Text.lower).takeWhile (fun l => !Text.isBlankText l) =
      (lines.takeWhile fun l => !Text.isBlankText l).map Text.lower := by
  rw [List.takeWhile_map, notBlankText_comp_lower]

theorem messageLength_lower (lines : List (List Char)) :
    messageLength (lines.map Text.lower) = messageLength lines := by
  cases lines with
  | nil => rfl
  | cons first rest =>
    have hkeyword : (messageText? (Text.lower first)).isSome = (messageText? first).isSome := by
      rw [messageText?_lower, Option.isSome_map]
    rw [List.map_cons, messageLength, hkeyword, takeWhile_notBlank_lower, List.length_map]
    rfl

theorem messageTexts_lower (lines : List (List Char)) :
    messageTexts (lines.map Text.lower) = (messageTexts lines).map Text.lowered := by
  cases lines with
  | nil => rfl
  | cons first rest =>
    rw [List.map_cons, messageTexts, messageText?_lower, messageTexts]
    cases messageText? first with
    | none => rfl
    | some text =>
      simp only [Option.map_some, takeWhile_notBlank_lower]
      rw [← List.map_cons, List.filter_map, notBlankText_comp_lower, List.map_map, List.map_map]
      refine List.map_congr_left fun line _ => ?_
      simp [Text.trim_lower]

end Messages

section Division

/-- Steps that respect a change of what they are given respect it together. -/
theorem bind_map_eq {ε α β γ δ : Type} {x : Except ε α} {f : α → β} {g : α → Except ε γ}
    {g' : β → Except ε δ} {k : γ → δ} (h : ∀ a, g' (f a) = (g a).map k) :
    (x.map f >>= g') = (x >>= g).map k := by
  cases x with
  | error fault => rfl
  | ok a => exact h a

theorem numbered_lower (lines : List (List Char)) :
    numbered (lines.map Text.lower) = (numbered lines).map .lower := by
  apply List.ext_getElem?
  intro n
  simp only [numbered, List.getElem?_mapIdx, List.getElem?_map]
  cases lines[n]? <;> rfl

theorem notBlank_comp_lower :
    (fun l : PhysicalLine => !l.isBlank) ∘ PhysicalLine.lower = fun l => !l.isBlank :=
  funext fun line => congrArg (! ·) line.isBlank_lower

theorem isBlank_comp_lower : PhysicalLine.isBlank ∘ PhysicalLine.lower = PhysicalLine.isBlank :=
  funext PhysicalLine.isBlank_lower

theorem takeBlock_lower (lastLine found : Nat) (block : BlockName) (lines : List PhysicalLine) :
    takeBlock lastLine found block (lines.map .lower) =
      (takeBlock lastLine found block lines).map fun parts =>
        (parts.1.map .lower, parts.2.map .lower) := by
  unfold takeBlock
  simp only [List.dropWhile_map, List.takeWhile_map, notBlank_comp_lower, isBlank_comp_lower]
  generalize (List.dropWhile (fun l => !PhysicalLine.isBlank l) lines).takeWhile
    PhysicalLine.isBlank = separator
  match separator with
  | [] => rfl
  | [_] => rfl
  | first :: second :: rest =>
    simp only [List.map_cons, List.length_cons, List.length_map]
    rfl

theorem blockCards_lower (lastLine : Nat) (block : BlockName) (lines : List PhysicalLine) :
    blockCards lastLine block (lines.map .lower) =
      (blockCards lastLine block lines).map (List.map .lower) := by
  have hhead : (lines.map PhysicalLine.lower).head?.map PhysicalLine.number =
      lines.head?.map PhysicalLine.number := by
    cases lines <;> rfl
  have hempty : ((LogicalCard.ofLines lines).map LogicalCard.lower).isEmpty =
      (LogicalCard.ofLines lines).isEmpty := List.isEmpty_map
  unfold blockCards
  simp only [LogicalCard.ofLines_lower, hhead, hempty]
  split <;> rfl

/-- A text in lower case gives the same fault as the text, or its blocks in lower case. -/
theorem ofLines_lower (lines : List (List Char)) :
    ofLines (lines.map Text.lower) = (ofLines lines).map lower := by
  unfold ofLines
  simp only [messageLength_lower, List.getElem?_map, List.length_map, numbered_lower]
  cases lines[messageLength lines]? with
  | none => rfl
  | some title =>
    simp only [Option.map_some, Text.isBlankText_lower]
    split
    · rfl
    · rw [← List.map_drop, takeBlock_lower]
      refine bind_map_eq fun first => ?_
      rw [takeBlock_lower]
      refine bind_map_eq fun second => ?_
      simp only [List.takeWhile_map, notBlank_comp_lower, blockCards_lower]
      refine bind_map_eq fun cells => bind_map_eq fun surfaces => bind_map_eq fun data => ?_
      simp only [pure, Except.pure, Except.map, lower, messageTexts_lower, Text.trim_lower,
        Text.lowered_ofList]

end Division

end Blocks

end TransportDeck
