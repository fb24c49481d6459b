import TransportDeck.Proofs.Blocks.CommentCards
import TransportDeck.Proofs.Blocks.LineRange
import TransportDeck.Proofs.LogicalCard.Groups
import TransportDeck.Proofs.Text.Bytes

namespace TransportDeck

section Cards

variable {lines : List PhysicalLine}

theorem Text.cutComment_sublist (quote : Option Char) (cs : List Char) :
    (cutComment quote cs).1.Sublist cs := by
  fun_induction cutComment quote cs with
  | case1 => exact List.Sublist.refl _
  | case2 => exact List.nil_sublist _
  | case3 quote c rest hne content comment hcut ih =>
    rw [hcut] at ih
    exact ih.cons_cons c

theorem PhysicalLine.body_sublist (line : PhysicalLine) : line.body.Sublist line.text := by
  have hcontent : line.content.Sublist line.text :=
    (Text.trimEnd_sublist _).trans (Text.cutComment_sublist none line.text)
  unfold PhysicalLine.body
  split
  · exact (Text.trim_sublist _).trans ((List.dropLast_sublist _).trans hcontent)
  · exact (Text.trim_sublist _).trans hcontent

theorem pieceBytes_bodies_le (group : List PhysicalLine) :
    Text.pieceBytes ((bodies group).map String.toList) ≤ Text.pieceBytes (group.map (·.text)) := by
  have hfilter : (bodies group).map String.toList =
      (group.map PhysicalLine.body).filter (· ≠ []) := by
    rw [bodies, List.map_map]
    exact List.map_id'' (fun w => String.toList_ofList) _
  rw [hfilter]
  refine Nat.le_trans (Text.pieceBytes_sublist List.filter_sublist) ?_
  rw [Text.pieceBytes, Text.pieceBytes, List.map_map, List.map_map]
  exact List.sum_le_sum fun line _ => Nat.succ_le_succ (Text.bytes_sublist line.body_sublist)

theorem CardOf.bytes_lt {group : List PhysicalLine} {card : LogicalCard} (h : CardOf group card)
    (hne : group ≠ []) : Text.bytes card.text.toList < Text.pieceBytes (group.map (·.text)) := by
  have hbodies := pieceBytes_bodies_le group
  rw [h.text]
  by_cases hempty : bodies group = []
  · have hgroup := Text.length_le_pieceBytes (group.map (·.text))
    have hpos := List.length_pos_of_ne_nil hne
    rw [List.length_map] at hgroup
    rw [hempty]
    exact Nat.lt_of_lt_of_le hpos hgroup
  · have hjoined := Text.bytes_joined hempty
    omega

theorem LogicalCard.bytes_lt {card : LogicalCard} (h : card ∈ LogicalCard.ofLines lines) :
    Text.bytes card.text.toList < Text.pieceBytes (lines.map (·.text)) := by
  obtain ⟨k, hk, rfl⟩ := List.mem_iff_getElem.mp h
  have hcards := cardOf_ofLines lines
  have hk' : k < ((contentLines lines).splitBy PhysicalLine.goesOn).length := by
    rw [hcards.length_eq]
    exact hk
  have hgroup := List.getElem_mem hk'
  have hcard : CardOf _ _ := hcards.get hk' hk
  have hpart : (((contentLines lines).splitBy PhysicalLine.goesOn)[k]).Sublist lines := by
    have hflat := List.sublist_flatten_of_mem hgroup
    rw [List.flatten_splitBy] at hflat
    exact hflat.trans List.filter_sublist
  exact Nat.lt_of_lt_of_le (hcard.bytes_lt (List.ne_nil_of_mem_splitBy hgroup))
    (Text.pieceBytes_sublist (hpart.map _))

theorem LogicalCard.length_gather_le (card : LogicalCard) (continued : Bool)
    (lines : List CardLine) : (gather card continued lines).length ≤ lines.length + 1 := by
  fun_induction gather card continued lines with
  | case1 => exact Nat.le_refl 1
  | case2 card continued number comment rest ih => exact Nat.le_succ_of_le ih
  | case3 card continued line rest hgoesOn ih => exact Nat.le_succ_of_le ih
  | case4 card continued line rest hstarts ih => exact Nat.succ_le_succ ih

theorem LogicalCard.length_ofLines_le (lines : List PhysicalLine) :
    (LogicalCard.ofLines lines).length ≤ lines.length := by
  have hcards (ls : List CardLine) : (ofCardLines ls).length ≤ ls.length := by
    fun_induction ofCardLines ls with
    | case1 => exact Nat.le_refl 0
    | case2 number comment rest ih => exact Nat.le_succ_of_le ih
    | case3 line rest => exact length_gather_le _ _ rest
  exact Nat.le_trans (hcards _) (List.length_filterMap_le _ _)

end Cards

namespace Blocks

/-- A block is the start of the lines, and what is left after it is their end. -/
theorem takeBlock_sublist {lastLine found : Nat} {block : BlockName}
    {lines before after : List PhysicalLine}
    (h : takeBlock lastLine found block lines = .ok (before, after)) :
    before.Sublist lines ∧ after <:+ lines := by
  unfold takeBlock at h
  dsimp only at h
  split at h
  · cases h
  · cases h
    exact ⟨List.takeWhile_sublist _, (List.dropWhile_suffix _).trans (List.dropWhile_suffix _)⟩
  · cases h

/-- The lines of the three blocks are lines of the text. -/
theorem takeBlocks_sublist {lastLine : Nat} {body cells surfaces data : List PhysicalLine}
    (h : takeBlocks lastLine body = .ok (cells, surfaces, data)) :
    cells.Sublist body ∧ surfaces.Sublist body ∧ data.Sublist body := by
  obtain ⟨⟨before, rest⟩, hfirst, h⟩ := bind_eq_ok.mp h
  obtain ⟨⟨before', rest'⟩, hsecond, h⟩ := bind_eq_ok.mp h
  cases h
  obtain ⟨hcells, hrest⟩ := takeBlock_sublist hfirst
  obtain ⟨hsurfaces, hrest'⟩ := takeBlock_sublist hsecond
  exact ⟨hcells, hsurfaces.trans hrest.sublist,
    (List.takeWhile_sublist _).trans (hrest'.trans hrest).sublist⟩

/-- The cards of each block are those of some lines of the text. -/
theorem exists_lines {lines : List (List Char)} {blocks : Blocks} (h : ofLines lines = .ok blocks) :
    ∃ cells surfaces data : List PhysicalLine,
      (cells.Sublist (numbered lines) ∧ blocks.cells = LogicalCard.ofLines cells) ∧
      (surfaces.Sublist (numbered lines) ∧ blocks.surfaces = LogicalCard.ofLines surfaces) ∧
      data.Sublist (numbered lines) ∧ blocks.data = LogicalCard.ofLines data := by
  obtain ⟨title, body, cells, surfaces, data, hrest, -, htaken, hcards⟩ := exists_title_of_ok h
  obtain ⟨cellCards, hcells, hcards⟩ := bind_eq_ok.mp hcards
  obtain ⟨surfaceCards, hsurfaces, hcards⟩ := bind_eq_ok.mp hcards
  obtain ⟨dataCards, hdata, hcards⟩ := bind_eq_ok.mp hcards
  cases hcards
  obtain ⟨rfl, -⟩ := blockCards_eq_ok_iff.mp hcells
  obtain ⟨rfl, -⟩ := blockCards_eq_ok_iff.mp hsurfaces
  obtain ⟨rfl, -⟩ := blockCards_eq_ok_iff.mp hdata
  have hbody : body.Sublist (numbered lines) :=
    (List.sublist_cons_self title body).trans (hrest ▸ List.drop_sublist _ _)
  obtain ⟨hcellLines, hsurfaceLines, hdataLines⟩ := takeBlocks_sublist htaken
  exact ⟨cells, surfaces, data, ⟨hcellLines.trans hbody, rfl⟩, ⟨hsurfaceLines.trans hbody, rfl⟩,
    hdataLines.trans hbody, rfl⟩

theorem bytes_card_le {text : String} {blocks : Blocks} (h : ofText text = .ok blocks)
    {card : LogicalCard} (hcard : card ∈ blocks.cards) :
    Text.bytes card.text.toList ≤ Text.bytes text.toList := by
  have hpart {part : List PhysicalLine} (hsub : part.Sublist (numbered (Text.lines text.toList)))
      (hmem : card ∈ LogicalCard.ofLines part) :
      Text.bytes card.text.toList ≤ Text.bytes text.toList := by
    have hcardBytes := LogicalCard.bytes_lt hmem
    have hpartBytes := Text.pieceBytes_sublist (hsub.map (·.text))
    have hlines := (Text.lines_le text.toList).1
    rw [map_text_numbered] at hpartBytes
    omega
  obtain ⟨cells, surfaces, data, ⟨hcells, hcellCards⟩, ⟨hsurfaces, hsurfaceCards⟩, hdata,
    hdataCards⟩ := exists_lines h
  rcases List.mem_append.mp hcard with hcard | hcard
  · rcases List.mem_append.mp hcard with hcard | hcard
    · exact hpart hcells (hcellCards ▸ hcard)
    · exact hpart hsurfaces (hsurfaceCards ▸ hcard)
  · exact hpart hdata (hdataCards ▸ hcard)

/-- There are no more cell cards than bytes. -/
theorem length_cells_le {text : String} {blocks : Blocks} (h : ofText text = .ok blocks) :
    blocks.cells.length ≤ Text.bytes text.toList := by
  obtain ⟨cells, -, -, ⟨hcells, hcards⟩, -⟩ := exists_lines h
  have hnumbered : (numbered (Text.lines text.toList)).length = (Text.lines text.toList).length := by
    rw [← List.length_map (fun l : PhysicalLine => l.text), map_text_numbered]
  have hlines := (Text.lines_le text.toList).2
  calc blocks.cells.length
      ≤ cells.length := hcards ▸ LogicalCard.length_ofLines_le cells
    _ ≤ (numbered (Text.lines text.toList)).length := hcells.length_le
    _ ≤ Text.bytes text.toList := by omega

end Blocks

end TransportDeck
