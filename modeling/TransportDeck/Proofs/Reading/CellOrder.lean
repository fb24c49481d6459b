import TransportDeck.Analysis
import TransportDeck.Proofs.CrossRefs.CellOrder
import TransportDeck.Proofs.Like.CellOrder

namespace TransportDeck

namespace BlockRules

variable {α : Type} {rules : BlockRules α}

def record? (rules : BlockRules α) : Span × CardResult α → Option α
  | (span, .ok (a, _)) => some (rules.place span a)
  | (_, .error _) => none

/-- Where the keys are distinct, every card that can be read is kept. -/
theorem keepFirst_of_nodup (hplace : ∀ span a, rules.key? (rules.place span a) = rules.key? a)
    (before : List α) (seen : List (RecordKey × Span)) (results : List (Span × CardResult α))
    (hd : ((results.filterMap rules.record?).filterMap rules.key?).Nodup)
    (hseen : ∀ key ∈ (results.filterMap rules.record?).filterMap rules.key?, seen.lookup key = none) :
    (rules.keepFirst before seen results).1 = results.filterMap rules.record? := by
  induction results generalizing before seen with
  | nil => rfl
  | cons result rest ih =>
    rcases result with ⟨span, issue | ⟨a, issues⟩⟩
    · exact ih before seen hd hseen
    · have hrecord : rules.record? (span, .ok (a, issues)) = some (rules.place span a) := rfl
      rw [List.filterMap_cons_some hrecord] at hd hseen ⊢
      cases hkey : rules.key? a with
      | none =>
        have hnew : rules.earlier? seen a = none := by rw [earlier?, hkey, Option.bind_none]
        rw [List.filterMap_cons_none (by rw [hplace, hkey])] at hd hseen
        simp only [keepFirst, hnew, hkey]
        exact congrArg (rules.place span a :: ·) (ih (a :: before) seen hd hseen)
      | some key =>
        rw [List.filterMap_cons_some (by rw [hplace, hkey])] at hd hseen
        have hunseen : seen.lookup key = none := hseen key List.mem_cons_self
        have hnew : rules.earlier? seen a = none := by
          rw [earlier?, hkey, Option.bind_some, hunseen, Option.map_none]
        obtain ⟨hother, hrest⟩ := List.nodup_cons.mp hd
        have hlater : ∀ k ∈ (rest.filterMap rules.record?).filterMap rules.key?,
            ((key, span) :: seen).lookup k = none := by
          intro k hk
          have hne : (k == key) = false := beq_eq_false_iff_ne.mpr fun hsame => hother (hsame ▸ hk)
          rw [List.lookup_cons, hne]
          exact hseen k (List.mem_cons_of_mem _ hk)
        simp only [keepFirst, hnew, hkey]
        exact congrArg (rules.place span a :: ·) (ih (a :: before) ((key, span) :: seen) hrest hlater)

end BlockRules

def LogicalCard.cell? (card : LogicalCard) : Option Cell :=
  match Card.readCell card.text.toList with
  | .ok (c, _) => some { c with span := card.span }
  | .error _ => none

/-- Two decks that are read from the same cell cards in different orders, and from the same other
cards. -/
structure Deck.Reordered (cards cards' : List LogicalCard) (d d' : Deck) : Prop where
  /-- A cell comes out in full the same in both, and takes the place of its card. -/
  cells : ∃ finish : Cell → Cell,
    (∀ c ∈ cards.filterMap LogicalCard.cell?,
      (finish c).number = c.number ∧ (finish c).span = c.span) ∧
    d.cells = (cards.filterMap LogicalCard.cell?).map finish ∧
    d'.cells = (cards'.filterMap LogicalCard.cell?).map finish
  others : d' = { d with cells := d'.cells }
  hierarchy : (Model.ofDeck d').hierarchy = (Model.ofDeck d).hierarchy
  crossRefs : (Model.ofDeck d).crossRefs.Reordered (Model.ofDeck d').crossRefs

namespace Reading

theorem filterMap_results (cards : List LogicalCard) :
    (Cell.rules.results cards).filterMap Cell.rules.record? = cards.filterMap LogicalCard.cell? := by
  rw [BlockRules.results, List.filterMap_map]
  congr 1
  funext card
  change Cell.rules.record? (card.span, Card.readCell card.text.toList) = card.cell?
  rw [LogicalCard.cell?]
  cases Card.readCell card.text.toList <;> rfl

/-- Cells of different numbers are all written. -/
theorem writtenCells_of_nodup {blocks : Blocks}
    (hd : ((blocks.cells.filterMap LogicalCard.cell?).map (·.number)).Nodup) :
    blocks.writtenCells = blocks.cells.filterMap LogicalCard.cell? := by
  have hkeys (cells : List Cell) : cells.filterMap Cell.rules.key? =
      (cells.map (·.number)).map fun n => (RecordKind.cell, n) := by
    rw [List.map_map]
    exact congrFun List.filterMap_eq_map cells
  rw [Blocks.writtenCells, ← filterMap_results]
  apply BlockRules.keepFirst_of_nodup (fun _ _ => rfl)
  · rw [filterMap_results, hkeys]
    exact hd.map fun _ _ hsame => (Prod.mk.inj hsame).2
  · exact fun _ _ => rfl

/-- Cell cards that define different cells may stand in any order. -/
theorem reordered_ofBlocks (blocks : Blocks) (cards : List LogicalCard)
    (hperm : blocks.cells.Perm cards)
    (hdistinct : ((blocks.cells.filterMap LogicalCard.cell?).map (·.number)).Nodup) :
    Deck.Reordered blocks.cells cards (ofBlocks blocks).deck
      (ofBlocks { blocks with cells := cards }).deck := by
  have hcellsPerm := hperm.filterMap LogicalCard.cell?
  have hdistinct' : ((cards.filterMap LogicalCard.cell?).map (·.number)).Nodup :=
    (hcellsPerm.map _).nodup hdistinct
  have hcells := cells_ofBlocks blocks
  have hcells' := cells_ofBlocks { blocks with cells := cards }
  rw [writtenCells_of_nodup hdistinct] at hcells
  rw [writtenCells_of_nodup hdistinct'] at hcells'
  have hfinish : (fun c : Cell => (c.expand (cards.filterMap LogicalCard.cell?)).1) =
      fun c => (c.expand (blocks.cells.filterMap LogicalCard.cell?)).1 :=
    funext fun c => by rw [Cell.expand_perm hcellsPerm hdistinct]
  rw [hfinish] at hcells'
  have hothers : (ofBlocks { blocks with cells := cards }).deck =
      { (ofBlocks blocks).deck with
        cells := (ofBlocks { blocks with cells := cards }).deck.cells } := rfl
  have hdeckPerm : (ofBlocks blocks).deck.cells.Perm
      (ofBlocks { blocks with cells := cards }).deck.cells := by
    rw [hcells, hcells']
    exact hcellsPerm.map _
  have hdeckDistinct := nodup_number_ofBlocks blocks
  refine ⟨⟨_, ?_, hcells, hcells'⟩, hothers, ?_, ?_⟩
  · intro c hc
    obtain ⟨hnumber, hspan, _⟩ := Cell.expand_keeps hdistinct hc
    exact ⟨hnumber, hspan⟩
  · rw [hothers]
    exact Hierarchy.ofDeck_perm hdeckPerm
  · rw [hothers]
    exact CrossRefs.reordered_ofDeck hdeckPerm hdeckDistinct

def nestedCards : List LogicalCard :=
  [⟨"1 0 -1 fill=1", ⟨2, 2⟩, []⟩, ⟨"2 0 -1 u=1", ⟨3, 3⟩, []⟩, ⟨"3 like 2 but u=1", ⟨4, 4⟩, []⟩]

def nestedBlocks : Blocks where
  title := "nested"
  titleLine := 1
  messages := []
  cells := nestedCards
  surfaces := [⟨"1 so 1", ⟨6, 6⟩, []⟩]
  data := [⟨"nps 1", ⟨8, 8⟩, []⟩]

/-- The last cell may come before the one that it is written like. -/
theorem reordered_nestedBlocks :
    nestedCards.Perm nestedCards.reverse ∧
    ((nestedCards.filterMap LogicalCard.cell?).map (·.number)) = [1, 2, 3] ∧
    Deck.Reordered nestedCards nestedCards.reverse (ofBlocks nestedBlocks).deck
      (ofBlocks { nestedBlocks with cells := nestedCards.reverse }).deck := by
  have hperm : nestedCards.Perm nestedCards.reverse := nestedCards.reverse_perm.symm
  have hnumbers : ((nestedCards.filterMap LogicalCard.cell?).map (·.number)) = [1, 2, 3] := by
    decide +kernel
  have hdistinct : ((nestedBlocks.cells.filterMap LogicalCard.cell?).map (·.number)).Nodup := by
    change ((nestedCards.filterMap LogicalCard.cell?).map (·.number)).Nodup
    rw [hnumbers]
    decide
  exact ⟨hperm, hnumbers, reordered_ofBlocks nestedBlocks nestedCards.reverse hperm hdistinct⟩

end Reading

end TransportDeck
