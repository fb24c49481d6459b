import Mathlib.Data.List.Nodup
import TransportDeck.Reading

namespace TransportDeck

namespace BlockRules

variable {α : Type} {rules : BlockRules α}

theorem earlier?_eq_none {seen : List (RecordKey × Span)} {a : α}
    (h : rules.earlier? seen a = none) : ∀ key ∈ rules.key? a, seen.lookup key = none := by
  intro key hkey
  rw [Option.mem_def] at hkey
  simpa [earlier?, hkey] using h

/-- No record is kept under a key that has been seen, and no two are kept under one key. -/
theorem nodup_keys_keepFirst (rules : BlockRules α)
    (hplace : ∀ span a, rules.key? (rules.place span a) = rules.key? a)
    (before : List α) (seen : List (RecordKey × Span)) (results : List (Span × CardResult α)) :
    ((rules.keepFirst before seen results).1.filterMap rules.key?).Nodup ∧
      ∀ key ∈ (rules.keepFirst before seen results).1.filterMap rules.key?,
        seen.lookup key = none := by
  induction results generalizing before seen with
  | nil => exact ⟨List.nodup_nil, fun key hkey => absurd hkey List.not_mem_nil⟩
  | cons result rest ih =>
    rcases result with ⟨span, issue | ⟨a, issues⟩⟩
    · exact ih before seen
    · cases hearlier : rules.earlier? seen a with
      | some known =>
        simp only [keepFirst, hearlier]
        exact ih (a :: before) seen
      | none =>
        have hnew := earlier?_eq_none hearlier
        simp only [keepFirst, hearlier]
        cases hkey : rules.key? a with
        | none =>
          rw [List.filterMap_cons_none (by rw [hplace, hkey])]
          exact ih (a :: before) seen
        | some key =>
          rw [List.filterMap_cons_some (by rw [hplace, hkey])]
          obtain ⟨hnodup, hunseen⟩ := ih (a :: before) ((key, span) :: seen)
          -- what is kept later is looked up among the definitions that now have this one on top
          have hlater : ∀ k, ((key, span) :: seen).lookup k = none → k ≠ key ∧ seen.lookup k = none := by
            intro k hk
            rw [List.lookup_cons] at hk
            cases hsame : k == key with
            | true => simp [hsame] at hk
            | false => exact ⟨by simpa using hsame, by simpa [hsame] using hk⟩
          refine ⟨List.nodup_cons.mpr ⟨fun hmem => (hlater key (hunseen key hmem)).1 rfl, hnodup⟩, ?_⟩
          intro k hk
          rcases List.mem_cons.mp hk with rfl | hk
          · exact hnew k hkey
          · exact (hlater k (hunseen k hk)).2

/-- What is kept comes from the cards that can be read, each under its lines. -/
theorem exists_result_of_kept (rules : BlockRules α) (before : List α)
    (seen : List (RecordKey × Span)) (results : List (Span × CardResult α)) :
    ∀ kept ∈ (rules.keepFirst before seen results).1,
      ∃ span a issues, (span, .ok (a, issues)) ∈ results ∧ kept = rules.place span a := by
  induction results generalizing before seen with
  | nil => exact fun kept h => absurd h List.not_mem_nil
  | cons result rest ih =>
    intro kept hkept
    have hlater {before seen} (h : kept ∈ (rules.keepFirst before seen rest).1) :
        ∃ span a issues, (span, .ok (a, issues)) ∈ result :: rest ∧ kept = rules.place span a := by
      obtain ⟨span, a, issues, hmem, hplace⟩ := ih before seen kept h
      exact ⟨span, a, issues, List.mem_cons_of_mem _ hmem, hplace⟩
    rcases result with ⟨span, issue | ⟨a, issues⟩⟩
    · exact hlater hkept
    · cases hearlier : rules.earlier? seen a with
      | some known =>
        simp only [keepFirst, hearlier] at hkept
        exact hlater hkept
      | none =>
        simp only [keepFirst, hearlier] at hkept
        rcases List.mem_cons.mp hkept with hplace | hkept
        · exact ⟨span, a, issues, List.mem_cons_self, hplace⟩
        · exact hlater hkept

/-- What holds of every report about a card by itself holds of all that a block reports. -/
theorem forall_reports_keepFirst (rules : BlockRules α) {P : Diagnostic → Prop}
    (before : List α) (seen : List (RecordKey × Span)) (results : List (Span × CardResult α))
    (hfailed : ∀ span issue, (span, .error issue) ∈ results → P (issue.report span))
    (hread : ∀ span a issues, (span, .ok (a, issues)) ∈ results →
      (∀ issue ∈ issues, P (issue.report span)) ∧
      (∀ before, ∀ f ∈ rules.remarks before a, P (f.report (some span))) ∧
      (∀ (key : RecordKey) (first : Span),
        P ((Finding.duplicate key.1 key.2 first).report (some span))) ∧
      ∀ f ∈ rules.audit a, P (f.report (some span))) :
    ∀ r ∈ (rules.keepFirst before seen results).2, P r := by
  induction results generalizing before seen with
  | nil => exact fun r h => absurd h List.not_mem_nil
  | cons result rest ih =>
    intro r hr
    have hlater {before seen} (h : r ∈ (rules.keepFirst before seen rest).2) : P r :=
      ih before seen (fun span issue hmem => hfailed span issue (List.mem_cons_of_mem _ hmem))
        (fun span a issues hmem => hread span a issues (List.mem_cons_of_mem _ hmem)) r h
    rcases result with ⟨span, issue | ⟨a, issues⟩⟩
    · rcases List.mem_cons.mp hr with rfl | hr
      · exact hfailed span issue List.mem_cons_self
      · exact hlater hr
    · obtain ⟨hissues, hremarks, hduplicate, haudit⟩ := hread span a issues List.mem_cons_self
      have hfound (h : r ∈ issues.map (·.report span) ++
          (rules.remarks before a).map (·.report (some span))) : P r := by
        rcases List.mem_append.mp h with h | h
        · obtain ⟨issue, hissue, rfl⟩ := List.mem_map.mp h
          exact hissues issue hissue
        · obtain ⟨f, hf, rfl⟩ := List.mem_map.mp h
          exact hremarks before f hf
      cases hearlier : rules.earlier? seen a with
      | some known =>
        simp only [keepFirst, hearlier] at hr
        rcases List.mem_append.mp hr with h | h
        · exact hfound h
        · rcases List.mem_cons.mp h with rfl | h
          · exact hduplicate known.1 known.2
          · exact hlater h
      | none =>
        simp only [keepFirst, hearlier] at hr
        rcases List.mem_append.mp hr with h | h
        · rcases List.mem_append.mp h with h | h
          · exact hfound h
          · obtain ⟨f, hf, rfl⟩ := List.mem_map.mp h
            exact haudit f hf
        · exact hlater h

end BlockRules

/-- The cells of a block as written: those that can be read, the first of each number. -/
def Blocks.writtenCells (blocks : Blocks) : List Cell :=
  (Cell.rules.keepFirst [] [] (Cell.rules.results blocks.cells)).1

/-- Where keys are distinct, so are the numbers of the records of one kind. -/
theorem nodup_numbers {α β : Type} {key? : α → Option RecordKey} {record? : α → Option β}
    {kind : RecordKind} {number : β → Nat}
    (h : ∀ a b, record? a = some b → key? a = some (kind, number b)) {records : List α}
    (hd : (records.filterMap key?).Nodup) : ((records.filterMap record?).map number).Nodup := by
  have hsub : (((records.filterMap record?).map number).map fun n => (kind, n)).Sublist
      (records.filterMap key?) := by
    clear hd
    induction records with
    | nil => exact .slnil
    | cons a rest ih =>
      cases hrecord : record? a with
      | some b =>
        rw [List.filterMap_cons_some hrecord, List.filterMap_cons_some (h a b hrecord)]
        exact ih.cons_cons _
      | none =>
        rw [List.filterMap_cons_none hrecord]
        cases hkey : key? a with
        | some key =>
          rw [List.filterMap_cons_some hkey]
          exact ih.cons _
        | none =>
          rw [List.filterMap_cons_none hkey]
          exact ih
  exact (hd.sublist hsub).of_map _

/-- The numbers of what is kept of a block of one kind. -/
theorem BlockRules.nodup_number_keepFirst {α : Type} {rules : BlockRules α} {kind : RecordKind}
    {number : α → Nat} (hkey : ∀ a, rules.key? a = some (kind, number a))
    (hplace : ∀ span a, rules.key? (rules.place span a) = rules.key? a)
    (results : List (Span × CardResult α)) :
    ((rules.keepFirst [] [] results).1.map number).Nodup := by
  have hself : ∀ a b, some a = some b → rules.key? a = some (kind, number b) := by
    rintro a _ ⟨⟩
    exact hkey a
  have hnumbers := nodup_numbers hself (rules.nodup_keys_keepFirst hplace [] [] results).1
  rwa [List.filterMap_some] at hnumbers

theorem Blocks.nodup_number_writtenCells (blocks : Blocks) :
    (blocks.writtenCells.map (·.number)).Nodup :=
  BlockRules.nodup_number_keepFirst (fun _ => rfl) (fun _ _ => rfl) _

/-- Reading reports on the cell cards, then on the bases of cells, then on the other two blocks. -/
theorem Reading.reports_ofBlocks (blocks : Blocks) :
    (Reading.ofBlocks blocks).reports =
      (Cell.rules.keepFirst [] [] (Cell.rules.results blocks.cells)).2 ++
        (expandLike blocks.writtenCells).2 ++
        (Surface.rules.keepFirst [] [] (Surface.rules.results blocks.surfaces)).2 ++
        (DataCard.rules.keepFirst [] [] (DataCard.rules.results blocks.data)).2 := rfl

/-- The cells of the deck are those written, each in full. -/
theorem Reading.cells_ofBlocks (blocks : Blocks) :
    (Reading.ofBlocks blocks).deck.cells =
      blocks.writtenCells.map fun c => (c.expand blocks.writtenCells).1 := by
  change (expandLike blocks.writtenCells).1 = _
  rw [expandLike, List.map_map]
  rfl

end TransportDeck
