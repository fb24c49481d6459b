import TransportDeck.Proofs.Analysis.Shapes
import TransportDeck.Proofs.Like.Expand
import TransportDeck.Proofs.Reading.Fates

namespace TransportDeck

structure Deck.Distinct (d : Deck) : Prop where
  cells : (d.cells.map (·.number)).Nodup
  surfaces : (d.surfaces.map (·.number)).Nodup
  materials : (d.materials.map (·.number)).Nodup
  transforms : (d.transforms.map (·.number)).Nodup
  tallies : (d.tallies.map (·.number)).Nodup

structure CrossRefs.Complete (refs : CrossRefs) (d : Deck) : Prop where
  cells : refs.cells.size = d.cells.length
  surfaces : refs.surfaces.size = d.surfaces.length
  materials : refs.materials.size = d.materials.length
  transforms : refs.transforms.size = d.transforms.length
  tallies : refs.tallies.size = d.tallies.length

structure Diagnostic.Counts (r : Diagnostic) (d : Deck) : Prop where
  code : r.code = .entityCounts
  cells : r.value? "cells" = some (d.cells.length : Int)
  surfaces : r.value? "surfaces" = some (d.surfaces.length : Int)
  materials : r.value? "materials" = some (d.materials.length : Int)
  transforms : r.value? "transforms" = some (d.transforms.length : Int)
  tallies : r.value? "tallies" = some (d.tallies.length : Int)

theorem Cell.lawful_rules : Cell.rules.Lawful where
  key_place _ _ := rfl
  code_remarks _ _ _ h := absurd h List.not_mem_nil
  code_audit _ _ h := absurd h List.not_mem_nil

theorem Surface.lawful_rules : Surface.rules.Lawful where
  key_place _ _ := rfl
  code_remarks _ _ _ h := absurd h List.not_mem_nil
  code_audit _ _ h := absurd h List.not_mem_nil

theorem DataCard.key?_place (span : Span) (card : DataCard) :
    (card.place span).key? = card.key? := by
  unfold key? place
  cases card.payload <;> rfl

theorem DataCard.lawful_rules : DataCard.rules.Lawful where
  key_place := key?_place
  code_remarks before card f hf := by
    change f ∈ card.remarks before at hf
    unfold remarks at hf
    split at hf
    · cases hf
    · simp [List.mem_singleton.mp hf, Finding.code]
  code_audit card f hf := by
    change f ∈ card.audit at hf
    unfold audit at hf
    split at hf
    · cases hf
    · split at hf
      · simp [List.mem_singleton.mp hf, Finding.code]
      · cases hf

/-- The record on a data card gives the card its key. -/
theorem DataCard.key?_of_record (card : DataCard) :
    (∀ m, card.material? = some m → card.key? = some (.material, m.number)) ∧
    (∀ t, card.transform? = some t → card.key? = some (.transform, t.number)) ∧
    (∀ t, card.tally? = some t → card.key? = some (.tally, t.number)) := by
  unfold material? transform? tally? key?
  cases card.payload <;> simp

/-- In a deck as read no number is given twice. -/
theorem distinct_ofBlocks (blocks : Blocks) : (Reading.ofBlocks blocks).deck.Distinct := by
  have hsurfaces : ((Reading.ofBlocks blocks).deck.surfaces.map (·.number)).Nodup :=
    BlockRules.nodup_number_keepFirst (fun _ => rfl) Surface.lawful_rules.key_place _
  have hdata : ((Reading.ofBlocks blocks).deck.data.filterMap DataCard.key?).Nodup :=
    (DataCard.rules.nodup_keys_keepFirst DataCard.lawful_rules.key_place [] [] _).1
  exact ⟨nodup_number_ofBlocks blocks, hsurfaces,
    nodup_numbers (fun card => card.key?_of_record.1) hdata,
    nodup_numbers (fun card => card.key?_of_record.2.1) hdata,
    nodup_numbers (fun card => card.key?_of_record.2.2) hdata⟩

theorem size_ofList_map {α : Type} {number : α → Nat} {records : List α} (span : α → Span)
    (h : (records.map number).Nodup) :
    (Table.ofList (records.map fun a => (number a, span a))).size = records.length := by
  rw [Table.size_ofList, List.length_map]
  rwa [List.map_map]

theorem complete_ofDeck {d : Deck} (h : d.Distinct) : (CrossRefs.ofDeck d).Complete d where
  cells := size_ofList_map Cell.span h.cells
  surfaces := size_ofList_map Surface.span h.surfaces
  materials := size_ofList_map Material.span h.materials
  transforms := size_ofList_map Transform.span h.transforms
  tallies := size_ofList_map Tally.span h.tallies

theorem counts_summary {d : Deck} (h : (CrossRefs.ofDeck d).Complete d) :
    Diagnostic.Counts ((Finding.entityCounts (Model.ofDeck d).entityCounts).report none) d := by
  have hvalue (key : String) := Finding.value?_report
    (.entityCounts (Model.ofDeck d).entityCounts) none key
  refine ⟨rfl, ?_, ?_, ?_, ?_, ?_⟩
  all_goals rw [hvalue]
  · rw [← h.cells]
    rfl
  · rw [← h.surfaces]
    rfl
  · rw [← h.materials]
    rfl
  · rw [← h.transforms]
    rfl
  · rw [← h.tallies]
    rfl

/-- The cards that repeat an earlier one are reported as such, and no others. -/
theorem duplicates_ofBlocks (blocks : Blocks) :
    reportsUnder [.duplicateEntityNumber] (Reading.ofBlocks blocks).reports =
      (Cell.rules.fates [] blocks.cells).repeats ++
        (Surface.rules.fates [] blocks.surfaces).repeats ++
        (DataCard.rules.fates [] blocks.data).repeats := by
  have hlike : reportsUnder [.duplicateEntityNumber] (expandLike blocks.writtenCells).2 = [] := by
    have hcodes : ∀ code ∈ Code.ofLike, code ∉ [Code.duplicateEntityNumber] := by decide
    exact reportsUnder_eq_nil fun r hr => hcodes r.code (code_mem_expandLike r hr)
  rw [Reading.reports_ofBlocks, reportsUnder_append, reportsUnder_append, reportsUnder_append, hlike,
    List.append_nil, BlockRules.repeats_fates Cell.lawful_rules,
    BlockRules.repeats_fates Surface.lawful_rules, BlockRules.repeats_fates DataCard.lawful_rules]

theorem entityCounts_ofReading (settings : Settings) (blocks : Blocks) :
    reportsUnder [.entityCounts] (Analysis.ofReading settings (.ofBlocks blocks)).diagnostics =
      if settings.quiet then [] else
        [(Finding.entityCounts (Model.ofDeck (Reading.ofBlocks blocks).deck).entityCounts).report
          none] := by
  have hfound (p : Diagnostic → Bool) :
      reportsUnder [.entityCounts] ((Analysis.found settings blocks).filter p) = [] := by
    apply reportsUnder_eq_nil
    intro r hr hcode
    have hseverity := Analysis.severity_found r (List.mem_filter.mp hr).1
    rw [Diagnostic.severity, List.mem_singleton.mp hcode] at hseverity
    exact absurd hseverity (by decide)
  rw [Analysis.diagnostics_ofReading, reportsUnder_append, hfound, List.nil_append]
  split
  · rfl
  · rw [reportsUnder_append, hfound, List.nil_append]
    rfl

namespace Reading

/-- Reading conserves cards: in each block every card is kept as a record, in order, or dropped with an
error on its lines, which for a card that can be read is the one report that it repeats an earlier one.
So no number is given twice, and the tables and the summary count every record. -/
theorem conserves_cards (blocks : Blocks) :
    ∃ cells surfaces data,
      Accounts Cell.rules (fun c => (c.expand blocks.writtenCells).1) Cell.span blocks.cells
        (ofBlocks blocks).deck.cells (ofBlocks blocks).reports cells ∧
      Accounts Surface.rules id Surface.span blocks.surfaces
        (ofBlocks blocks).deck.surfaces (ofBlocks blocks).reports surfaces ∧
      Accounts DataCard.rules id DataCard.span blocks.data
        (ofBlocks blocks).deck.data (ofBlocks blocks).reports data ∧
      reportsUnder [.duplicateEntityNumber] (ofBlocks blocks).reports =
        cells.repeats ++ surfaces.repeats ++ data.repeats ∧
      (ofBlocks blocks).deck.Distinct ∧
      (CrossRefs.ofDeck (ofBlocks blocks).deck).Complete (ofBlocks blocks).deck ∧
      ∃ counts : Diagnostic, counts.Counts (ofBlocks blocks).deck ∧ ∀ settings,
        reportsUnder [.entityCounts] (Analysis.ofReading settings (ofBlocks blocks)).diagnostics =
          if settings.quiet then [] else [counts] := by
  have hdistinct := distinct_ofBlocks blocks
  have hcomplete := complete_ofDeck hdistinct
  refine ⟨Cell.rules.fates [] blocks.cells, Surface.rules.fates [] blocks.surfaces,
    DataCard.rules.fates [] blocks.data, ?_, ?_, ?_, duplicates_ofBlocks blocks, hdistinct,
    hcomplete, _, counts_summary hcomplete, fun settings => entityCounts_ofReading settings blocks⟩
  · -- what LIKE does to a cell leaves its number and its lines
    have hfinish : ∀ c ∈ blocks.writtenCells,
        Cell.rules.key? (c.expand blocks.writtenCells).1 = Cell.rules.key? c ∧
          (c.expand blocks.writtenCells).1.span = c.span := by
      intro c hc
      obtain ⟨hnumber, hspan, _⟩ := Cell.expand_keeps blocks.nodup_number_writtenCells hc
      exact ⟨congrArg (fun n => some (RecordKind.cell, n)) hnumber, hspan⟩
    rw [cells_ofBlocks]
    refine BlockRules.accounts_fates Cell.lawful_rules (fun _ _ => rfl) hfinish ?_
    rw [reports_ofBlocks]
    exact fun r hr => by simp [hr]
  · rw [← List.map_id (ofBlocks blocks).deck.surfaces]
    refine BlockRules.accounts_fates Surface.lawful_rules (fun _ _ => rfl)
      (fun _ _ => ⟨rfl, rfl⟩) ?_
    rw [reports_ofBlocks]
    exact fun r hr => by simp [hr]
  · rw [← List.map_id (ofBlocks blocks).deck.data]
    refine BlockRules.accounts_fates DataCard.lawful_rules (fun _ _ => rfl)
      (fun _ _ => ⟨rfl, rfl⟩) ?_
    rw [reports_ofBlocks]
    exact fun r hr => by simp [hr]

end Reading

end TransportDeck
