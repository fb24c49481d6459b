import TransportDeck.Proofs.Blocks.LetterCase
import TransportDeck.Proofs.Card.LetterCase
import TransportDeck.Reading

namespace TransportDeck

/-- A change of records that the rules of a block do not see. -/
structure BlockRules.Respects {α : Type} (rules : BlockRules α) (f : α → α) : Prop where
  key? : ∀ a, rules.key? (f a) = rules.key? a
  place : ∀ span a, rules.place span (f a) = f (rules.place span a)
  remarks : ∀ before a, rules.remarks (before.map f) (f a) = rules.remarks before a
  audit : ∀ a, rules.audit (f a) = rules.audit a

namespace BlockRules

variable {α : Type} {rules : BlockRules α} {f : α → α}

def changeRecord (f : α → α) (result : Span × CardResult α) : Span × CardResult α :=
  (result.1, result.2.map (Prod.map f id))

theorem keepFirst_changeRecord (h : rules.Respects f) (before : List α)
    (seen : List (RecordKey × Span)) (results : List (Span × CardResult α)) :
    rules.keepFirst (before.map f) seen (results.map (changeRecord f)) =
      Prod.map (List.map f) id (rules.keepFirst before seen results) := by
  induction results generalizing before seen with
  | nil => rfl
  | cons result rest ih =>
    rcases result with ⟨span, issue | ⟨a, issues⟩⟩
    · have hchange : changeRecord f (span, .error issue) = (span, .error issue) := rfl
      rw [List.map_cons, hchange, keepFirst, ih, keepFirst]
      rfl
    · have hchange : changeRecord f (span, .ok (a, issues)) = (span, .ok (f a, issues)) := rfl
      have hearlier : rules.earlier? seen (f a) = rules.earlier? seen a := by
        rw [earlier?, h.key?, earlier?]
      have hrest := ih (a :: before)
      rw [List.map_cons] at hrest
      rw [List.map_cons, hchange]
      simp only [keepFirst, hearlier, h.remarks, h.audit, h.key?, h.place]
      cases rules.earlier? seen a with
      | some known =>
        simp only [hrest]
        rfl
      | none =>
        simp only [hrest]
        rfl

theorem results_lower (hread : ∀ text, rules.read (Text.lower text) =
      (rules.read text).map (Prod.map f id)) (cards : List LogicalCard) :
    rules.results (cards.map .lower) = (rules.results cards).map (changeRecord f) := by
  rw [results, List.map_map, results, List.map_map]
  refine List.map_congr_left fun card _ => ?_
  have htext : card.lower.text.toList = Text.lower card.text.toList := Text.toList_lowered card.text
  change (card.span, rules.read card.lower.text.toList) = _
  rw [htext, hread]
  rfl

/-- Cards whose reading does not see letter case give the same results. -/
theorem results_lower_of_eq (hread : ∀ text, rules.read (Text.lower text) = rules.read text)
    (cards : List LogicalCard) : rules.results (cards.map .lower) = rules.results cards := by
  have hsame (result : CardResult α) : result.map (Prod.map id id) = result := by
    cases result <;> rfl
  have hchange : changeRecord (id : α → α) = id :=
    funext fun result => Prod.ext rfl (hsame result.2)
  have hlower (text : List Char) :
      rules.read (Text.lower text) = (rules.read text).map (Prod.map id id) := by
    rw [hread, hsame]
  rw [results_lower hlower, hchange, List.map_id]

end BlockRules

namespace DataCard

theorem key?_lower (card : DataCard) : card.lower.key? = card.key? := by
  unfold lower key?
  cases card.payload <;> rfl

theorem place_lower (span : Span) (card : DataCard) :
    card.lower.place span = (card.place span).lower := by
  unfold lower place
  cases card.payload <;> rfl

theorem material?_lower (card : DataCard) : card.lower.material? = card.material? := by
  unfold lower material?
  cases card.payload <;> rfl

theorem respects_lower : DataCard.rules.Respects lower where
  key? := key?_lower
  place := place_lower
  remarks before card := by
    change remarks (before.map lower) card.lower = remarks before card
    rw [remarks, List.any_map, remarks]
    rfl
  audit card := by
    change audit card.lower = audit card
    rw [audit, material?_lower, audit]

end DataCard

def Deck.lower (d : Deck) : Deck :=
  { d with
    title := Text.lowered d.title
    messages := d.messages.map Text.lowered
    data := d.data.map .lower }

/-- Blocks in lower case give the same reading, with the deck in lower case. -/
theorem Reading.ofBlocks_lower (blocks : Blocks) :
    Reading.ofBlocks blocks.lower =
      { Reading.ofBlocks blocks with deck := (Reading.ofBlocks blocks).deck.lower } := by
  have hcells : Cell.rules.results (blocks.cells.map .lower) = Cell.rules.results blocks.cells :=
    BlockRules.results_lower_of_eq Card.readCell_lower blocks.cells
  have hsurfaces : Surface.rules.results (blocks.surfaces.map .lower) =
      Surface.rules.results blocks.surfaces :=
    BlockRules.results_lower_of_eq Card.readSurface_lower blocks.surfaces
  have hdata : DataCard.rules.keepFirst [] [] (DataCard.rules.results (blocks.data.map .lower)) =
      Prod.map (List.map DataCard.lower) id
        (DataCard.rules.keepFirst [] [] (DataCard.rules.results blocks.data)) := by
    rw [BlockRules.results_lower Card.readData_lower]
    exact BlockRules.keepFirst_changeRecord DataCard.respects_lower [] [] _
  simp only [ofBlocks, Blocks.lower, hcells, hsurfaces, hdata]
  rfl

end TransportDeck
