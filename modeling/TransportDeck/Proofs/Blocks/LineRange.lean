import TransportDeck.Proofs.Blocks.Outcomes
import TransportDeck.Proofs.LogicalCard.LineRange

namespace TransportDeck

namespace Blocks

structure FromText (n : Nat) (lines : List PhysicalLine) : Prop where
  within : ∀ line ∈ lines, 1 ≤ line.number ∧ line.number ≤ n
  ascending : lines.Pairwise fun a b => a.number < b.number

def Ends {α : Type} (n : Nat) (P : α → Prop) : Except LayoutFault α → Prop
  | .error fault => fault.span.Within n
  | .ok a => P a

/-- The text is a message block and nothing else. -/
def OnlyMessages (lines : List PhysicalLine) : Prop :=
  lines ≠ [] ∧ AfterMessages lines []

def cards (blocks : Blocks) : List LogicalCard :=
  blocks.cells ++ blocks.surfaces ++ blocks.data

def Within (n : Nat) (blocks : Blocks) : Prop :=
  ∀ card ∈ blocks.cards, card.span.Within n

theorem Ends.bind {α β : Type} {n : Nat} {P : α → Prop} {Q : β → Prop} {x : Except LayoutFault α}
    {f : α → Except LayoutFault β} (h : Ends n P x) (hf : ∀ a, P a → Ends n Q (f a)) :
    Ends n Q (x >>= f) := by
  cases x with
  | error fault => exact h
  | ok a => exact hf a h

theorem FromText.sublist {n : Nat} {lines part : List PhysicalLine} (h : FromText n lines)
    (hpart : part.Sublist lines) : FromText n part where
  within line hline := h.within line (hpart.subset hline)
  ascending := h.ascending.sublist hpart

theorem fromText_numbered (lines : List (List Char)) :
    FromText (max lines.length 1) (numbered lines) := by
  constructor
  · intro line hline
    obtain ⟨k, hk, rfl⟩ := List.mem_mapIdx.mp hline
    exact ⟨Nat.le_add_left 1 k, Nat.le_trans hk (Nat.le_max_left ..)⟩
  · apply List.pairwise_iff_getElem.mpr
    intro j k hj hk hjk
    simp only [numbered, List.getElem_mapIdx]
    omega

section Steps

variable {n lastLine : Nat} (hlast : 1 ≤ lastLine ∧ lastLine ≤ n)

include hlast

theorem ends_takeBlock (found : Nat) (block : BlockName) {lines : List PhysicalLine}
    (hlines : FromText n lines) :
    Ends n (fun parts => FromText n parts.1 ∧ FromText n parts.2)
      (takeBlock lastLine found block lines) := by
  rcases unbroken_or_exists_firstRun lines with hunbroken | ⟨before, run, after, hrun⟩
  · rw [takeBlock_unbroken lastLine found block hunbroken]
    exact Span.within_line hlast.1 hlast.2
  · have hjoined := hrun.joined
    match run, hrun.ne_nil with
    | [blank], _ =>
      rw [takeBlock_single lastLine found block hrun rfl]
      have hafter : after.Sublist ([blank] ++ after) := List.sublist_append_right ..
      rw [hjoined] at hlines
      exact ⟨hlines.sublist (List.sublist_append_left ..),
        hlines.sublist (hafter.trans (List.sublist_append_right ..))⟩
    | first :: second :: rest, _ =>
      rw [takeBlock_longRun lastLine found block hrun]
      rw [hjoined] at hlines
      have hblanks := (List.pairwise_append.mp hlines.ascending).2.1
      have hnext : first.number < second.number :=
        (List.pairwise_cons.mp hblanks).1 second List.mem_cons_self
      have hsecond : second.number ≤ n := (hlines.within second (by simp)).2
      exact Span.within_line (Nat.le_add_left 1 _) (hnext.trans_le hsecond)

theorem ends_takeBlocks {body : List PhysicalLine} (hbody : FromText n body) :
    Ends n (fun blocks => FromText n blocks.1 ∧ FromText n blocks.2.1 ∧ FromText n blocks.2.2)
      (takeBlocks lastLine body) := by
  refine (ends_takeBlock hlast 1 .cells hbody).bind fun first hfirst => ?_
  refine (ends_takeBlock hlast 2 .surfaces hfirst.2).bind fun second hsecond => ?_
  exact ⟨hfirst.1, hsecond.1, hsecond.2.sublist (List.takeWhile_sublist _)⟩

theorem ends_blockCards (block : BlockName) {lines : List PhysicalLine} (hlines : FromText n lines) :
    Ends n (fun cards => ∀ card ∈ cards, card.span.Within n) (blockCards lastLine block lines) := by
  unfold blockCards
  dsimp only
  split
  · cases lines with
    | nil => exact Span.within_line hlast.1 hlast.2
    | cons first rest =>
      obtain ⟨hpos, hle⟩ := hlines.within first List.mem_cons_self
      exact Span.within_line hpos hle
  · exact LogicalCard.within_ofLines hlines.within

end Steps

theorem within_lastLine (lines : List (List Char)) :
    1 ≤ max lines.length 1 ∧ max lines.length 1 ≤ max lines.length 1 :=
  ⟨Nat.le_max_right .., Nat.le_refl _⟩

theorem ends_withCards (lines : List (List Char)) (title : PhysicalLine)
    {cells surfaces data : List PhysicalLine} (hcells : FromText (max lines.length 1) cells)
    (hsurfaces : FromText (max lines.length 1) surfaces)
    (hdata : FromText (max lines.length 1) data) :
    Ends (max lines.length 1) (Within (max lines.length 1))
      (withCards lines title cells surfaces data) := by
  refine (ends_blockCards (within_lastLine lines) .cells hcells).bind fun cellCards hcellCards => ?_
  refine (ends_blockCards (within_lastLine lines) .surfaces hsurfaces).bind
    fun surfaceCards hsurfaceCards => ?_
  refine (ends_blockCards (within_lastLine lines) .data hdata).bind fun dataCards hdataCards => ?_
  intro card hcard
  rcases List.mem_append.mp hcard with hcard | hcard
  · rcases List.mem_append.mp hcard with hcard | hcard
    · exact hcellCards card hcard
    · exact hsurfaceCards card hcard
  · exact hdataCards card hcard

theorem onlyMessages_iff {lines : List (List Char)} :
    OnlyMessages (numbered lines) ↔ lines ≠ [] ∧ lines.length ≤ messageLength lines := by
  have hlength : (numbered lines).length = lines.length := List.length_mapIdx
  have hempty : numbered lines = [] ↔ lines = [] := by
    rw [← List.length_eq_zero_iff, hlength, List.length_eq_zero_iff]
  have hover : (numbered lines).drop (messageLength lines) = [] ↔
      lines.length ≤ messageLength lines := by
    rw [List.drop_eq_nil_iff, hlength]
  rw [OnlyMessages, Ne, hempty]
  refine and_congr_right fun _ => ?_
  constructor
  · intro hafter
    have hdrop := hafter.eq_drop
    rw [map_text_numbered] at hdrop
    exact hover.mp hdrop.symm
  · intro hlong
    obtain ⟨rest, hafter⟩ := exists_afterMessages (numbered lines)
    have hdrop := hafter.eq_drop
    rw [map_text_numbered, hover.mpr hlong] at hdrop
    exact hdrop ▸ hafter

/-- The title of a text that is a message block only is missed on a line that the text does not
have. -/
theorem ofLines_onlyMessages {lines : List (List Char)} (h : OnlyMessages (numbered lines)) :
    ∃ line, max lines.length 1 < line ∧ ofLines lines = .error (.missingTitle line) := by
  obtain ⟨hne, hlong⟩ := onlyMessages_iff.mp h
  have hpos := List.length_pos_of_ne_nil hne
  refine ⟨messageLength lines + 1, by omega, ?_⟩
  apply ofLines_untitled rfl
  have hnone : (numbered lines).drop (messageLength lines) = [] := by
    rw [List.drop_eq_nil_iff, numbered, List.length_mapIdx]
    exact hlong
  rw [hnone]
  intro title htitle
  cases htitle

/-- The division of any other text ends within it. -/
theorem ends_ofLines {lines : List (List Char)} (h : ¬ OnlyMessages (numbered lines)) :
    Ends (max lines.length 1) (Within (max lines.length 1)) (ofLines lines) := by
  have hrest : FromText (max lines.length 1) ((numbered lines).drop (messageLength lines)) :=
    (fromText_numbered lines).sublist (List.drop_sublist ..)
  by_cases htitled : Untitled ((numbered lines).drop (messageLength lines))
  · have hline : messageLength lines + 1 ≤ max lines.length 1 := by
      rw [onlyMessages_iff, not_and, Nat.not_le] at h
      cases lines with
      | nil => exact Nat.le_max_right ..
      | cons first rest => exact Nat.le_trans (h (List.cons_ne_nil first rest)) (Nat.le_max_left ..)
    rw [ofLines_untitled rfl htitled]
    exact Span.within_line (Nat.le_add_left 1 _) hline
  · obtain ⟨title, htitle⟩ := not_forall.mp htitled
    obtain ⟨hhead, htitle⟩ := Classical.not_imp.mp htitle
    obtain ⟨body, hbody⟩ := List.head?_eq_some_iff.mp hhead
    rw [ofLines_titled hbody.symm (Bool.eq_false_iff.mpr htitle)]
    rw [hbody] at hrest
    have hbody' := hrest.sublist (List.sublist_cons_self title body)
    refine (ends_takeBlocks (within_lastLine lines) hbody').bind fun parts hparts => ?_
    exact ends_withCards lines title hparts.1 hparts.2.1 hparts.2.2

end Blocks

end TransportDeck
