import TransportDeck.Proofs.Blocks.CardSizes
import TransportDeck.Proofs.Checked.CellCards
import TransportDeck.Proofs.Checked.DataCards
import TransportDeck.Proofs.Checked.Like
import TransportDeck.Proofs.Checked.SurfaceCards
import TransportDeck.Reading

namespace TransportDeck.Checked

variable {α : Type}

def results (read : List Char → Option (CardResult α)) (cards : List LogicalCard) :
    Option (List (Span × CardResult α)) :=
  cards.mapM fun card => do return (card.span, ← read card.text.toList)

def keepFirst (rules : BlockRules α) (audit : α → Option (List Finding)) (before : List α)
    (seen : List (RecordKey × Span)) :
    List (Span × CardResult α) → Option (List α × List Diagnostic)
  | [] => some ([], [])
  | (span, .error issue) :: rest => do
    let (kept, reports) ← keepFirst rules audit before seen rest
    return (kept, issue.report span :: reports)
  | (span, .ok (a, issues)) :: rest => do
    let found := issues.map (·.report span) ++
      (rules.remarks before a).map (·.report (some span))
    match rules.earlier? seen a with
    | some (key, first) =>
      let (kept, reports) ← keepFirst rules audit (a :: before) seen rest
      return (kept, found ++ (Finding.duplicate key.1 key.2 first).report (some span) :: reports)
    | none =>
      let defined := (rules.key? a).toList.map fun key => (key, span)
      let audits := (← audit a).map (·.report (some span))
      let (kept, reports) ← keepFirst rules audit (a :: before) (defined ++ seen) rest
      return (rules.place span a :: kept, found ++ audits ++ reports)

def auditFractions (card : DataCard) : Option (List Finding) :=
  match card.material? with
  | none => some []
  | some m => do
    if m.fractionKind?.isNone && !m.components.isEmpty then
      let atoms := m.components.countP fun c => 0 ≤ c.fraction
      return [.mixedFractions m.number atoms (← sub? m.components.length atoms)]
    else return []

noncomputable def ofBlocks (blocks : Blocks) : Option Reading := do
  let cellResults ← results readCell blocks.cells
  let (written, cellReports) ← keepFirst Cell.rules (fun _ => some []) [] [] cellResults
  let (cells, likeReports) ← expandLike written
  let (surfaces, surfaceReports) ←
    keepFirst Surface.rules (fun _ => some []) [] [] (← results readSurface blocks.surfaces)
  let (data, dataReports) ←
    keepFirst DataCard.rules auditFractions [] [] (← results readData blocks.data)
  return {
    deck := { title := blocks.title, messages := blocks.messages, cells, surfaces, data }
    reports := cellReports ++ likeReports ++ surfaceReports ++ dataReports
    unrecognised := Reading.unrecognisedIn cellResults }

theorem results_eq {rules : BlockRules α} {read : List Char → Option (CardResult α)}
    {cards : List LogicalCard}
    (h : ∀ card ∈ cards, read card.text.toList = some (rules.read card.text.toList)) :
    results read cards = some (rules.results cards) :=
  mapM_eq_some fun card hcard => by rw [h card hcard]; rfl

theorem keepFirst_eq {rules : BlockRules α} {audit : α → Option (List Finding)}
    (haudit : ∀ a, audit a = some (rules.audit a)) (before : List α)
    (seen : List (RecordKey × Span)) (rs : List (Span × CardResult α)) :
    keepFirst rules audit before seen rs = some (rules.keepFirst before seen rs) := by
  fun_induction BlockRules.keepFirst rules before seen rs with
  | case1 => rfl
  | case2 before seen span issue rest kept reports hrest ih =>
    rw [keepFirst, ih, hrest]
    rfl
  | case3 before seen span a issues rest found key first hearlier kept reports hrest ih =>
    rw [keepFirst, hearlier, ih, hrest]
    rfl
  | case4 before seen span a issues rest found hearlier defined audits kept reports hrest ih =>
    rw [hrest] at ih
    rw [keepFirst, hearlier]
    dsimp only
    rw [ih, haudit]
    rfl

theorem auditFractions_eq (card : DataCard) : auditFractions card = some card.audit := by
  unfold auditFractions DataCard.audit
  cases card.material? with
  | none => rfl
  | some m =>
    have hatoms := sub?_eq (List.countP_le_length (p := fun c => decide (0 ≤ c.fraction))
      (l := m.components))
    dsimp only
    rw [hatoms]
    split <;> rfl

/-- A deck is read to its end if its cards are not too long. -/
theorem ofBlocks_eq {blocks : Blocks}
    (h : ∀ card ∈ blocks.cards, Text.bytes card.text.toList < lengthLimit) :
    ofBlocks blocks = some (Reading.ofBlocks blocks) := by
  have hcells : results readCell blocks.cells = some (Cell.rules.results blocks.cells) :=
    results_eq fun card hcard => readCell_eq (h card (by simp [Blocks.cards, hcard]))
  have hsurfaces : results readSurface blocks.surfaces =
      some (Surface.rules.results blocks.surfaces) :=
    results_eq fun card _ => readSurface_eq card.text.toList
  have hdata : results readData blocks.data = some (DataCard.rules.results blocks.data) :=
    results_eq fun card hcard => readData_eq (h card (by simp [Blocks.cards, hcard]))
  have hkeptCells rs : keepFirst Cell.rules (fun _ => some []) [] [] rs =
      some (Cell.rules.keepFirst [] [] rs) := keepFirst_eq (fun _ => rfl) [] [] rs
  have hkeptSurfaces rs : keepFirst Surface.rules (fun _ => some []) [] [] rs =
      some (Surface.rules.keepFirst [] [] rs) := keepFirst_eq (fun _ => rfl) [] [] rs
  have hkeptData rs : keepFirst DataCard.rules auditFractions [] [] rs =
      some (DataCard.rules.keepFirst [] [] rs) := keepFirst_eq auditFractions_eq [] [] rs
  have hlike : expandLike (Cell.rules.keepFirst [] [] (Cell.rules.results blocks.cells)).1 = _ :=
    expandLike_eq blocks.nodup_number_writtenCells
  simp only [ofBlocks, hcells, hsurfaces, hdata, hkeptCells, hkeptSurfaces, hkeptData, hlike,
    Option.bind_eq_bind, Option.bind_some]
  rfl

end TransportDeck.Checked
