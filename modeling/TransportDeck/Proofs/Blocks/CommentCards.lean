import TransportDeck.Proofs.Blocks.Outcomes
import TransportDeck.Proofs.LogicalCard.CommentCards
import TransportDeck.Proofs.Reading.CellCards

namespace TransportDeck

namespace Commented

variable {number : Nat → Nat} {lines lines' before run after : List PhysicalLine}

/-- A comment card is not blank, so a first line that is not blank has another such line in its
place. -/
theorem head_not_blank (h : Commented number lines lines')
    (hlines : ∀ l ∈ lines.head?, l.isBlank = false) : ∀ l ∈ lines'.head?, l.isBlank = false := by
  cases h with
  | nil => exact hlines
  | @line line rest rest' hrest =>
    intro l hl
    cases hl
    exact hlines line rfl
  | @comment card lines lines' hcard hrest =>
    intro l hl
    cases hl
    exact hcard.not_blank

/-- The lines up to the first blank one have comment cards put in, too. -/
theorem takeWhile_not_blank (h : Commented number lines lines') :
    Commented number (lines.takeWhile fun l => !l.isBlank)
      (lines'.takeWhile fun l => !l.isBlank) := by
  induction h with
  | nil => exact .nil
  | @line line rest rest' _ ih =>
    cases hblank : line.isBlank with
    | true =>
      have hblank' : (line.renumber number).isBlank = true := hblank
      rw [List.takeWhile_cons_of_neg (by simp [hblank]),
        List.takeWhile_cons_of_neg (by simp [hblank'])]
      exact .nil
    | false =>
      have hblank' : (line.renumber number).isBlank = false := hblank
      rw [List.takeWhile_cons_of_pos (by simp [hblank]),
        List.takeWhile_cons_of_pos (by simp [hblank'])]
      exact .line ih
  | @comment card lines lines' hcard _ ih =>
    have hblank : card.isBlank = false := hcard.not_blank
    rw [List.takeWhile_cons_of_pos (by simp [hblank])]
    exact .comment hcard ih

/-- A single blank line stays single: what is put in next to it is not blank. -/
theorem firstRun {blank : PhysicalLine} (h : Commented number lines lines')
    (hrun : FirstRun lines before [blank] after) :
    ∃ before' after', FirstRun lines' before' [blank.renumber number] after' ∧
      Commented number before before' ∧ Commented number after after' := by
  induction h generalizing before with
  | nil =>
    have hjoined := hrun.joined
    simp at hjoined
  | @line line rest rest' hrest ih =>
    cases before with
    | nil =>
      -- the run starts here, and what comes next is not blank, put in or not
      obtain ⟨rfl, rfl⟩ := List.cons.inj hrun.joined
      exact ⟨[], rest', ⟨rfl, fun l hl => absurd hl List.not_mem_nil, List.cons_ne_nil _ _,
        List.forall_mem_singleton.mpr (hrun.blank line List.mem_cons_self),
        hrest.head_not_blank hrun.maximal⟩, .nil, hrest⟩
    | cons first before =>
      obtain ⟨rfl, hjoined⟩ := List.cons.inj hrun.joined
      have hfirst : line.isBlank = false := hrun.unbroken line List.mem_cons_self
      have hbefore : Unbroken before := fun l hl => hrun.unbroken l (List.mem_cons_of_mem _ hl)
      obtain ⟨before', after', hrun', hbefore', hafter'⟩ :=
        ih ⟨hjoined, hbefore, hrun.ne_nil, hrun.blank, hrun.maximal⟩
      refine ⟨line.renumber number :: before', after', ?_, .line hbefore', hafter'⟩
      exact ⟨congrArg (_ :: ·) hrun'.joined, List.forall_mem_cons.mpr ⟨hfirst, hrun'.unbroken⟩,
        hrun'.ne_nil, hrun'.blank, hrun'.maximal⟩
  | @comment card lines lines' hcard _ ih =>
    obtain ⟨before', after', hrun', hbefore', hafter'⟩ := ih hrun
    refine ⟨card :: before', after', ?_, .comment hcard hbefore', hafter'⟩
    exact ⟨congrArg (_ :: ·) hrun'.joined, List.forall_mem_cons.mpr ⟨hcard.not_blank, hrun'.unbroken⟩,
      hrun'.ne_nil, hrun'.blank, hrun'.maximal⟩

end Commented

namespace Blocks

section Commented

variable {number : Nat → Nat} {lines lines' : List PhysicalLine}

theorem takeBlock_commented {lastLine found : Nat} {block : BlockName}
    {taken rest : List PhysicalLine} (h : Commented number lines lines')
    (hok : takeBlock lastLine found block lines = .ok (taken, rest)) (lastLine' : Nat) :
    ∃ taken' rest', takeBlock lastLine' found block lines' = .ok (taken', rest') ∧
      Commented number taken taken' ∧ Commented number rest rest' := by
  rcases takeBlock_cases lastLine found block lines with
    ⟨_, fault, hfault, _⟩ | ⟨before, run, after, hrun, hsingle, htaken⟩
  · rw [hok] at hfault
    cases hfault
  · rw [hok] at htaken
    cases htaken
    obtain ⟨blank, rfl⟩ := List.length_eq_one_iff.mp hsingle
    obtain ⟨taken', rest', hrun', htaken', hrest'⟩ := h.firstRun hrun
    exact ⟨taken', rest', takeBlock_single lastLine' found block hrun' rfl, htaken', hrest'⟩

theorem takeBlocks_commented {lastLine : Nat} {cells surfaces data : List PhysicalLine}
    (h : Commented number lines lines')
    (hok : takeBlocks lastLine lines = .ok (cells, surfaces, data)) (lastLine' : Nat) :
    ∃ cells' surfaces' data', takeBlocks lastLine' lines' = .ok (cells', surfaces', data') ∧
      Commented number cells cells' ∧ Commented number surfaces surfaces' ∧
      Commented number data data' := by
  obtain ⟨⟨cells, rest⟩, hcells, hok⟩ := bind_eq_ok.mp hok
  obtain ⟨⟨surfaces, rest⟩, hsurfaces, hok⟩ := bind_eq_ok.mp hok
  cases hok
  obtain ⟨cells', rest', hcells', hcellLines, hrest⟩ := takeBlock_commented h hcells lastLine'
  obtain ⟨surfaces', rest', hsurfaces', hsurfaceLines, hrest⟩ :=
    takeBlock_commented hrest hsurfaces lastLine'
  refine ⟨cells', surfaces', _, ?_, hcellLines, hsurfaceLines, hrest.takeWhile_not_blank⟩
  simp only [takeBlocks, hcells', hsurfaces', bind, Except.bind, pure, Except.pure]

theorem blockCards_eq_ok_iff {lastLine : Nat} {name : BlockName} {cards : List LogicalCard} :
    blockCards lastLine name lines = .ok cards ↔ cards = LogicalCard.ofLines lines ∧ cards ≠ [] := by
  unfold blockCards
  cases hcards : LogicalCard.ofLines lines with
  | nil =>
    simp only [List.isEmpty_nil, if_true, reduceCtorEq, false_iff, not_and, not_not]
    exact id
  | cons card rest =>
    simp only [List.isEmpty_cons, Bool.false_eq_true, if_false, Except.ok.injEq]
    constructor
    · rintro rfl
      exact ⟨rfl, List.cons_ne_nil _ _⟩
    · rintro ⟨rfl, _⟩
      rfl

/-- A block with comment cards put in has the cards of the block, and so it has cards. -/
theorem blockCards_commented {lastLine : Nat} {name : BlockName} {cards : List LogicalCard}
    (hnumber : Monotone number) (h : Commented number lines lines')
    (hok : blockCards lastLine name lines = .ok cards) (lastLine' : Nat) :
    blockCards lastLine' name lines' = .ok (cards.map (.renumber number)) := by
  obtain ⟨rfl, hne⟩ := blockCards_eq_ok_iff.mp hok
  refine blockCards_eq_ok_iff.mpr ⟨(LogicalCard.ofLines_commented hnumber h).symm, ?_⟩
  exact mt List.map_eq_nil_iff.mp hne

end Commented

section Messages

variable {before after : List (List Char)}

/-- A message block that ends before some line does not depend on the lines from there on. -/
theorem messageBlock_append (h : messageLength (before ++ after) < before.length)
    (after' : List (List Char)) :
    messageLength (before ++ after') = messageLength (before ++ after) ∧
      messageTexts (before ++ after') = messageTexts (before ++ after) := by
  cases before with
  | nil => exact absurd h (Nat.not_lt_zero _)
  | cons first rest =>
    cases hopens : messageText? first with
    | none => simp [messageLength, messageTexts, hopens]
    | some text =>
      -- the block has ended within `rest`, so the run of lines that are not blank stops there
      have hstops : (rest.takeWhile fun l => !Text.isBlankText l).length ≠ rest.length := by
        intro hwhole
        simp only [messageLength, List.cons_append, hopens, Option.isSome_some, if_true,
          List.takeWhile_append, hwhole, List.length_append, List.length_cons] at h
        omega
      have hblock (more : List (List Char)) :
          ((rest ++ more).takeWhile fun l => !Text.isBlankText l) =
            rest.takeWhile fun l => !Text.isBlankText l := by
        rw [List.takeWhile_append, if_neg hstops]
      simp only [messageLength, messageTexts, List.cons_append, hopens, hblock, and_self]

end Messages

section Numbered

def pushedBack (p n : Nat) : Nat :=
  if n < p then n else n + 1

theorem monotone_pushedBack (p : Nat) : Monotone (pushedBack p) := by
  intro m n h
  unfold pushedBack
  split <;> split <;> omega

def numberedAfter (k : Nat) (lines : List (List Char)) : List PhysicalLine :=
  lines.mapIdx fun n text => ⟨n + k + 1, text⟩

theorem numbered_append (before after : List (List Char)) :
    numbered (before ++ after) = numbered before ++ numberedAfter before.length after :=
  List.mapIdx_append

theorem numberedAfter_cons (k : Nat) (text : List Char) (rest : List (List Char)) :
    numberedAfter k (text :: rest) = ⟨k + 1, text⟩ :: numberedAfter (k + 1) rest := by
  have hnext : (fun n text => (⟨n + 1 + k + 1, text⟩ : PhysicalLine)) =
      fun n text => ⟨n + (k + 1) + 1, text⟩ := by
    funext n text
    rw [Nat.add_right_comm n 1 k]
    rfl
  rw [numberedAfter, List.mapIdx_cons, hnext, Nat.zero_add]
  rfl

theorem renumber_numbered (lines : List (List Char)) :
    (numbered lines).map (.renumber (pushedBack (lines.length + 1))) = numbered lines := by
  apply List.ext_getElem?
  intro n
  rw [numbered, List.getElem?_map, List.getElem?_mapIdx]
  cases hline : lines[n]? with
  | none => rfl
  | some text =>
    have hn : n < lines.length := (List.getElem?_eq_some_iff.mp hline).1
    simp [PhysicalLine.renumber, pushedBack, hn]

theorem renumber_numberedAfter (k : Nat) (lines : List (List Char)) :
    (numberedAfter k lines).map (.renumber (pushedBack (k + 1))) = numberedAfter (k + 1) lines := by
  apply List.ext_getElem?
  intro n
  rw [numberedAfter, numberedAfter, List.getElem?_map, List.getElem?_mapIdx, List.getElem?_mapIdx]
  cases lines[n]? with
  | none => rfl
  | some text =>
    have hpast : ¬ n + k + 1 < k + 1 := by omega
    simp [PhysicalLine.renumber, pushedBack, hpast]
    omega

/-- From any line on that comes before it, a comment card that is put in pushes the lines back. -/
theorem commented_numbered (before after : List (List Char)) {comment : List Char}
    (hcomment : CommentCard comment) {k : Nat} (hk : k ≤ before.length) :
    Commented (pushedBack (before.length + 1)) ((numbered (before ++ after)).drop k)
      ((numbered (before ++ comment :: after)).drop k) := by
  have hlength : k ≤ (numbered before).length := hk.trans_eq List.length_mapIdx.symm
  have hearlier : Commented (pushedBack (before.length + 1)) ((numbered before).drop k)
      ((numbered before).drop k) := by
    have h := Commented.map_renumber (pushedBack (before.length + 1)) ((numbered before).drop k)
    rwa [List.map_drop, renumber_numbered] at h
  have hlater : Commented (pushedBack (before.length + 1)) (numberedAfter before.length after)
      (numberedAfter (before.length + 1) after) := by
    have h := Commented.map_renumber (pushedBack (before.length + 1))
      (numberedAfter before.length after)
    rwa [renumber_numberedAfter] at h
  rw [numbered_append, numbered_append, numberedAfter_cons, List.drop_append_of_le_length hlength,
    List.drop_append_of_le_length hlength]
  exact hearlier.append (.comment hcomment hlater)

end Numbered

def renumber (number : Nat → Nat) (blocks : Blocks) : Blocks :=
  { blocks with
    cells := blocks.cells.map (.renumber number)
    surfaces := blocks.surfaces.map (.renumber number)
    data := blocks.data.map (.renumber number) }

/-- What a text that can be divided is made of. -/
theorem exists_title_of_ok {lines : List (List Char)} {blocks : Blocks}
    (h : ofLines lines = .ok blocks) :
    ∃ title body cells surfaces data,
      title :: body = (numbered lines).drop (messageLength lines) ∧ title.isBlank = false ∧
      takeBlocks (max lines.length 1) body = .ok (cells, surfaces, data) ∧
      withCards lines title cells surfaces data = .ok blocks := by
  cases hrest : (numbered lines).drop (messageLength lines) with
  | nil =>
    have huntitled : Untitled [] := fun title htitle => by cases htitle
    rw [ofLines_untitled hrest.symm huntitled] at h
    cases h
  | cons title body =>
    cases htitle : title.isBlank with
    | true =>
      have huntitled : Untitled (title :: body) := fun line hline => by cases hline; exact htitle
      rw [ofLines_untitled hrest.symm huntitled] at h
      cases h
    | false =>
      rw [ofLines_titled hrest.symm htitle] at h
      obtain ⟨⟨cells, surfaces, data⟩, htaken, hcards⟩ := bind_eq_ok.mp h
      exact ⟨title, body, cells, surfaces, data, rfl, htitle, htaken, hcards⟩

theorem drop_numbered_of_head? {lines : List (List Char)} {n : Nat} {line : PhysicalLine}
    (h : ((numbered lines).drop n).head? = some line) :
    (numbered lines).drop n = line :: (numbered lines).drop (n + 1) := by
  obtain ⟨rest, hrest⟩ := List.head?_eq_some_iff.mp h
  rw [← List.tail_drop, hrest, List.tail_cons]

/-- A comment card that is put in after the title, at whatever line, is not seen: the text is divided
into the same title, messages and cards, whose lines from there on come one later. -/
theorem comment_card_unseen (text text' : String) (before after : List (List Char))
    (comment : List Char) (blocks : Blocks) (hcomment : CommentCard comment)
    (hlines : Text.lines text.toList = before ++ after)
    (hlines' : Text.lines text'.toList = before ++ comment :: after)
    (hblocks : ofText text = .ok blocks) (htitle : blocks.titleLine ≤ before.length) :
    ofText text' = .ok (blocks.renumber (pushedBack (before.length + 1))) := by
  have hnumber := monotone_pushedBack (before.length + 1)
  rw [ofText, hlines] at hblocks
  obtain ⟨title, body, cells, surfaces, data, hrest, hnotblank, htaken, hcards⟩ :=
    exists_title_of_ok hblocks
  obtain ⟨cellCards, hcells, hcards⟩ := bind_eq_ok.mp hcards
  obtain ⟨surfaceCards, hsurfaces, hcards⟩ := bind_eq_ok.mp hcards
  obtain ⟨dataCards, hdata, hcards⟩ := bind_eq_ok.mp hcards
  cases hcards
  have hbefore : messageLength (before ++ after) < before.length := htitle
  obtain ⟨hlength, hmessages⟩ := messageBlock_append hbefore (comment :: after)
  have hhead :
      ((numbered (before ++ comment :: after)).drop (messageLength (before ++ after))).head? =
        some title := by
    have hsame := head?_drop_numbered (before ++ after) (messageLength (before ++ after))
    rw [← hrest, List.getElem?_append_left hbefore] at hsame
    rw [head?_drop_numbered, List.getElem?_append_left hbefore]
    exact hsame.symm
  have hrest' := drop_numbered_of_head? hhead
  have hbody : Commented (pushedBack (before.length + 1)) body
      ((numbered (before ++ comment :: after)).drop (messageLength (before ++ after) + 1)) := by
    have hlater := commented_numbered before after hcomment hbefore
    rwa [← List.tail_drop, ← hrest, List.tail_cons] at hlater
  obtain ⟨cells', surfaces', data', htaken', hcellLines, hsurfaceLines, hdataLines⟩ :=
    takeBlocks_commented hbody htaken (max (before ++ comment :: after).length 1)
  have hcells' := blockCards_commented hnumber hcellLines hcells
    (max (before ++ comment :: after).length 1)
  have hsurfaces' := blockCards_commented hnumber hsurfaceLines hsurfaces
    (max (before ++ comment :: after).length 1)
  have hdata' := blockCards_commented hnumber hdataLines hdata
    (max (before ++ comment :: after).length 1)
  rw [← hlength] at hrest' htaken'
  rw [ofText, hlines', ofLines_titled hrest'.symm hnotblank, htaken']
  simp only [withCards, hcells', hsurfaces', hdata', hlength, hmessages, bind, Except.bind, pure,
    Except.pure, renumber]

def continuedCell : String :=
  "two spheres
1 0 -1 &
imp:n=1
2 0 1 -2

1 so 1
2 so 2

nps 1
"

def continuedCellBlocks : Blocks where
  title := "two spheres"
  titleLine := 1
  messages := []
  cells := [⟨"1 0 -1 imp:n=1", ⟨2, 3⟩, []⟩, ⟨"2 0 1 -2", ⟨4, 4⟩, []⟩]
  surfaces := [⟨"1 so 1", ⟨6, 6⟩, []⟩, ⟨"2 so 2", ⟨7, 7⟩, []⟩]
  data := [⟨"nps 1", ⟨9, 9⟩, []⟩]

/-- The card goes on past a comment card. -/
theorem comment_card_in_continuedCell :
    ofText continuedCell = .ok continuedCellBlocks ∧
    ofText "two spheres
1 0 -1 &
  C inside
imp:n=1
2 0 1 -2

1 so 1
2 so 2

nps 1
" =
      .ok (continuedCellBlocks.renumber (pushedBack 3)) ∧
    (continuedCellBlocks.renumber (pushedBack 3)).cells =
      [⟨"1 0 -1 imp:n=1", ⟨2, 4⟩, []⟩, ⟨"2 0 1 -2", ⟨5, 5⟩, []⟩] := by
  have hblocks : ofText continuedCell = .ok continuedCellBlocks := by decide +kernel
  have hcomment : CommentCard "  C inside".toList := by
    refine ⟨[' ', ' '], 'C', " inside".toList, by decide, ?_, .inr rfl, ?_⟩
    · exact List.all_eq_true.mp rfl
    · intro next hnext
      cases hnext
      rfl
  refine ⟨hblocks, ?_, by decide⟩
  exact comment_card_unseen continuedCell _ ["two spheres".toList, "1 0 -1 &".toList]
    (["imp:n=1", "2 0 1 -2", "", "1 so 1", "2 so 2", "", "nps 1"].map String.toList)
    "  C inside".toList continuedCellBlocks hcomment (by decide +kernel) (by decide +kernel) hblocks
    (by decide)

end Blocks

end TransportDeck
