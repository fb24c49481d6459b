import TransportDeck.Analysis
import TransportDeck.Proofs.Checked.Geometry
import TransportDeck.Proofs.Checked.CrossRefs
import TransportDeck.Proofs.Checked.Hierarchy
import TransportDeck.Proofs.Checked.Reading
import TransportDeck.Proofs.Checked.Segments
import TransportDeck.Proofs.Reading.Bounds

namespace TransportDeck

/-- Each leading character takes one column, or those up to the next tab stop. -/
theorem Text.indentWidth_le (line : List Char) : indentWidth line ≤ tabWidth * line.length := by
  have hfrom (column : Nat) (cs : List Char) :
      indentFrom column cs ≤ column + tabWidth * cs.length := by
    fun_induction indentFrom column cs with
    | case1 column rest ih =>
      rw [List.length_cons, tabWidth] at *
      omega
    | case2 column rest ih =>
      rw [List.length_cons, tabWidth] at *
      omega
    | case3 => exact Nat.le_add_right _ _
  have hzero := hfrom 0 line
  rwa [Nat.zero_add] at hzero

namespace Checked

noncomputable def ofReading (settings : Settings) (reading : Reading) : Option Analysis := do
  let deck := reading.deck
  let refs ← crossRefs deck
  let refReports ← crossRefReports refs deck
  let geometry ← geometryReports deck settings.tolerance
  let (hierarchy, universeReports) ← universes deck settings.maxNesting
  let model : Model := ⟨deck, hierarchy, refs⟩
  return {
    model := some model
    diagnostics := Analysis.kept settings (Analysis.bySeverity
      (reading.reports ++ refReports ++ geometry ++ universeReports ++ model.summary))
    notices := reading.notices }

noncomputable def analysis (settings : Settings) (text : String) : Option Analysis := do
  match ← (segment (Text.lines text.toList)).run with
  | .error fault => return .ofFault (.layout fault)
  | .ok blocks => ofReading settings (← ofBlocks blocks)

/-- Nothing that is counted in an analysis has as many as 2^63 members: the bytes of the text, the
columns before a line, the planes around a lattice element, and the universes filled into cells, once
for each element. -/
structure Fits (text : String) : Prop where
  bytes_lt : Text.bytes text.toList < lengthLimit
  columns_lt : ∀ line ∈ Text.lines text.toList, Text.indentWidth line < lengthLimit
  planes_lt : ∀ blocks, Blocks.ofText text = .ok blocks →
    ∀ c ∈ (Reading.ofBlocks blocks).deck.cells, c.isLattice = true →
      Geometry.boundingPlanes (Reading.ofBlocks blocks).deck c.region < lengthLimit
  targets_lt : ∀ blocks, Blocks.ofText text = .ok blocks →
    ((Reading.ofBlocks blocks).deck.cells.flatMap FillGraph.fillTargets).length < lengthLimit

section Sizes

variable {text : String} {blocks : Blocks}

theorem within_of_ofText (hblocks : Blocks.ofText text = .ok blocks) :
    ∀ c ∈ (Reading.ofBlocks blocks).deck.cells,
      c.Within (maxExpandedLength + 2 * Text.bytes text.toList) :=
  Reading.within_ofBlocks fun _ hcard =>
    Blocks.bytes_card_le hblocks (List.mem_append_left _ (List.mem_append_left _ hcard))

/-- A text of up to a gibibyte can be counted, whatever it says. -/
theorem fits_of_bytes_le (h : Text.bytes text.toList ≤ 1073741824) : Fits text := by
  refine ⟨?_, fun line hline => ?_, fun blocks hblocks c hc _ => ?_, fun blocks hblocks => ?_⟩
  · simp only [lengthLimit]
    omega
  · have hindent := Text.indentWidth_le line
    have hlength := Text.length_le_bytes line
    have hpieces := Text.bytes_lt_of_mem hline
    have hlines := (Text.lines_le text.toList).1
    simp only [lengthLimit, Text.tabWidth] at *
    omega
  · have hplanes := Geometry.boundingPlanes_le (Reading.ofBlocks blocks).deck c.region
    have hsurfaces := (within_of_ofText hblocks c hc).surfaces_le
    simp only [lengthLimit, maxExpandedLength] at *
    omega
  · have hcells : (Reading.ofBlocks blocks).deck.cells.length ≤ 1073741824 :=
      Nat.le_trans (Nat.le_trans (Reading.length_cells_le blocks) (Blocks.length_cells_le hblocks)) h
    have heach : maxExpandedLength + 2 * Text.bytes text.toList ≤ 2148483648 := by
      simp only [maxExpandedLength]
      omega
    calc ((Reading.ofBlocks blocks).deck.cells.flatMap FillGraph.fillTargets).length
        ≤ (Reading.ofBlocks blocks).deck.cells.length *
            (maxExpandedLength + 2 * Text.bytes text.toList) :=
          FillGraph.length_targets_le (within_of_ofText hblocks)
      _ ≤ 1073741824 * 2148483648 := Nat.mul_le_mul hcells heach
      _ < lengthLimit := by decide

end Sizes

section Analysis

variable {text : String}

theorem Fits.segment_eq (h : Fits text) :
    (segment (Text.lines text.toList)).run = some (Blocks.ofText text) := by
  obtain ⟨hpieces, hcount⟩ := Text.lines_le text.toList
  have hbytes := h.bytes_lt
  have hlines : (Text.lines text.toList).length < lengthLimit := by omega
  have hfits : ∀ line ∈ Text.lines text.toList, LineFits line := by
    intro line hline
    have hline' := Text.bytes_lt_of_mem hline
    exact ⟨by omega, h.columns_lt line hline⟩
  rw [Checked.segment_eq hlines hfits]
  rfl

theorem Fits.ofBlocks_eq (h : Fits text) {blocks : Blocks} (hblocks : Blocks.ofText text = .ok blocks) :
    ofBlocks blocks = some (Reading.ofBlocks blocks) :=
  Checked.ofBlocks_eq fun _ hcard =>
    Nat.lt_of_le_of_lt (Blocks.bytes_card_le hblocks hcard) h.bytes_lt

theorem Fits.ofReading_eq (h : Fits text) (settings : Settings) {blocks : Blocks}
    (hblocks : Blocks.ofText text = .ok blocks) :
    ofReading settings (Reading.ofBlocks blocks) =
      some (Analysis.ofReading settings (Reading.ofBlocks blocks)) := by
  have hwords : ∀ c ∈ (Reading.ofBlocks blocks).deck.cells, c.params.IsWord :=
    fun c hc => (within_of_ofText hblocks c hc).params.isWord
  have hsurfaces : ∀ s ∈ (Reading.ofBlocks blocks).deck.surfaces, ∀ n ∈ s.transform,
      Number.fitsInt32 n = true := fun s hs => Reading.fits_transform hs
  have htargets := h.targets_lt blocks hblocks
  have hgeometry := geometryReports_eq settings.tolerance (h.planes_lt blocks hblocks) hwords htargets
  have huniverses := universes_eq hwords htargets settings.maxNesting
  simp only [ofReading, crossRefs_eq hwords hsurfaces, crossRefReports_eq _ hwords hsurfaces,
    hgeometry, huniverses, Option.bind_eq_bind, Option.bind_some]
  rfl

/-- Every text is analysed to the end, under every setting. -/
theorem analysis_never_stops (settings : Settings) {text : String} (h : Fits text) :
    analysis settings text = some (Analysis.ofText settings text) := by
  rw [analysis, h.segment_eq, Option.bind_eq_bind, Option.bind_some, Analysis.ofText]
  cases hblocks : Blocks.ofText text with
  | error fault => rfl
  | ok blocks =>
    dsimp only
    rw [h.ofBlocks_eq hblocks, Option.bind_eq_bind, Option.bind_some]
    exact h.ofReading_eq settings hblocks

/-- A deck at the edges of what can be written: the least number of 32 bits as a universe and as an
index, a lattice element in parentheses, a cell like another, and an interpolation. -/
def edgeDeck : String :=
  "edges\n" ++
  "1 1 -2.7 -1 lat=1 u=-2147483648 fill=-2147483648:-2147483647 0:0 0:0 2 (3) 2\n" ++
  "2 like 1 but rho=-1 u=5\n" ++
  "3 0 1 fill=-2147483648\n" ++
  "\n" ++
  "1 rpp 0 1 0 1 0 1\n" ++
  "\n" ++
  "e0 1 3i 5\n" ++
  "tr3 0 0 0\n"

theorem edgeDeck_never_stops :
    Fits edgeDeck ∧ analysis {} edgeDeck = some (Analysis.ofText {} edgeDeck) :=
  have hfits : Fits edgeDeck := fits_of_bytes_le (by decide +kernel)
  ⟨hfits, analysis_never_stops {} hfits⟩

end Analysis

end Checked

end TransportDeck
