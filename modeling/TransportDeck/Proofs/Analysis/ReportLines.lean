import TransportDeck.Proofs.Analysis.PhaseCodes
import TransportDeck.Proofs.Analysis.Shapes
import TransportDeck.Proofs.Blocks.CommentCards
import TransportDeck.Proofs.Reading.Messages
import TransportDeck.Report

namespace TransportDeck

section Phases

variable {d : Deck}

theorem CrossRefs.lineReports (hnames : ∀ card ∈ d.data, Card.LineName card) :
    LineReports ((ofDeck d).reports d) := by
  have hdangling (span : Span) (references : List Reference) :
      LineReports ((ofDeck d).dangling span references) :=
    lineReports_map fun _ _ => rfl
  have himportance {card : DataCard} (hcard : card ∈ d.data) :
      LineReports (checkImportance d card) := by
    unfold checkImportance
    split
    · split
      · exact lineReports_nil
      · intro r hr
        rw [List.mem_singleton.mp hr]
        exact Finding.oneLine_message fun s hs =>
          List.mem_singleton.mp hs ▸ (hnames card hcard).oneLine
    · exact lineReports_nil
  have hunused : LineReports (ofDeck d).unusedReports :=
    (((lineReports_map fun _ _ => rfl).append (lineReports_map fun _ _ => rfl)).append
      (lineReports_map fun _ _ => rfl)).append (lineReports_map fun _ _ => rfl)
  have hcells := lineReports_flatMap fun c (_ : c ∈ d.cells) => hdangling c.span c.references
  have hsurfaces := lineReports_flatMap fun s (_ : s ∈ d.surfaces) => hdangling s.span s.references
  have hdata := lineReports_flatMap fun card (hcard : card ∈ d.data) =>
    (hdangling card.span card.references).append (himportance hcard)
  exact ((hcells.append hsurfaces).append hdata).append hunused

theorem Geometry.lineReports (tolerance : Float) : LineReports (reports d tolerance) := by
  have hcells : ∀ code ∈ Code.ofCellChecks,
      code ∉ Code.ofFaults ++ [.unknownDataCard, .surfaceCoeffCount] := by decide
  have hrotations : Code.ofRotations ⊆ Code.ofCellChecks := by decide
  have hsurface (s : Surface) : ∀ f ∈ checkSurface s, ∀ t ∈ f.quoted, OneLine t := by
    intro f hf t ht
    unfold checkSurface at hf
    split at hf
    · cases hf
    case h_2 expected hexpected =>
      split at hf
      · cases hf
      · rw [List.mem_singleton.mp hf] at ht
        rw [List.mem_singleton.mp ht]
        cases hkind : s.kind with
        | known shape => exact Card.oneLine_shape shape
        | unknown word => simp [hkind, SurfaceKind.coefficientCounts?] at hexpected
  refine ((lineReports_flatMap fun c _ => ?_).append (lineReports_flatMap fun s _ => ?_)).append
    (lineReports_flatMap fun card _ => ?_)
  · exact lineReports_map fun f hf => Finding.quoted_eq_nil (hcells _ (code_mem_checkCell f hf))
  · exact lineReports_findings _ (hsurface s)
  · exact lineReports_map fun f hf =>
      Finding.quoted_eq_nil (hcells _ (hrotations (code_mem_checkCard f hf)))

theorem Hierarchy.lineReports (limit : Nat) : LineReports (reports d limit) := by
  intro r hr
  simp only [reports, List.mem_append, List.mem_map, List.mem_filterMap] at hr
  rcases hr with (⟨_, _, rfl⟩ | ⟨_, _, hr⟩) | hr
  · exact Finding.oneLine_of_quoted_nil rfl
  · obtain ⟨c, _, rfl⟩ := Option.map_eq_some_iff.mp hr
    exact Finding.oneLine_of_quoted_nil rfl
  · unfold nestingReports at hr
    split at hr
    · rw [List.mem_singleton.mp hr]
      exact Finding.oneLine_of_quoted_nil rfl
    · cases hr

theorem Model.lineReports_summary (model : Model) : LineReports model.summary := by
  have hquoted : ∀ f ∈ [.maxDepth model.hierarchy.maxDepth, .entityCounts model.entityCounts],
      ∀ s ∈ Finding.quoted f, OneLine s := by
    simp [Finding.quoted]
  exact lineReports_findings none hquoted

end Phases

theorem Blocks.oneLine_title {text : String} {blocks : Blocks}
    (h : ofText text = .ok blocks) : OneLine blocks.title := by
  obtain ⟨title, body, cells, surfaces, data, hrest, -, -, hcards⟩ := exists_title_of_ok h
  obtain ⟨cellCards, -, hcards⟩ := bind_eq_ok.mp hcards
  obtain ⟨surfaceCards, -, hcards⟩ := bind_eq_ok.mp hcards
  obtain ⟨dataCards, -, hcards⟩ := bind_eq_ok.mp hcards
  cases hcards
  have hmem : title ∈ numbered (Text.lines text.toList) := by
    apply (List.drop_sublist _ _).subset
    rw [← hrest]
    exact List.mem_cons_self
  have hline : title.text ∈ Text.lines text.toList := by
    rw [← map_text_numbered (Text.lines text.toList)]
    exact List.mem_map_of_mem hmem
  exact oneLine_ofList.mpr (Text.newline_not_mem_trim (Text.newline_not_mem_of_mem_lines hline))

namespace Analysis

theorem lineReports_ofReading (settings : Settings) (blocks : Blocks) :
    LineReports (ofReading settings (.ofBlocks blocks)).diagnostics := by
  have hphases : LineReports (phases settings (.ofBlocks blocks)
      (.ofDeck (Reading.ofBlocks blocks).deck)) :=
    ((((Reading.lineReports_ofBlocks blocks).append
      (CrossRefs.lineReports (Reading.lineName_data blocks))).append
      (Geometry.lineReports settings.tolerance)).append
      (Hierarchy.lineReports settings.maxNesting)).append (Model.lineReports_summary _)
  exact fun r hr => hphases r (mem_bySeverity.mp (kept_subset hr))

/-- No title and no message of an analysis holds a newline. -/
theorem oneLine_ofText (settings : Settings) (text : String) :
    (∀ model, (ofText settings text).model = some model → OneLine model.deck.title) ∧
      LineReports (ofText settings text).diagnostics := by
  rw [ofText]
  cases hblocks : Blocks.ofText text with
  | error fault =>
    refine ⟨fun model hmodel => absurd hmodel (Option.some_ne_none model).symm, fun r hr => ?_⟩
    rw [List.mem_singleton.mp hr]
    exact fault.oneLine_message
  | ok blocks =>
    refine ⟨?_, lineReports_ofReading settings blocks⟩
    rintro model ⟨⟩
    exact Blocks.oneLine_title hblocks

/-- Lines that each end in a newline are joined by newlines, with nothing after the last. -/
theorem toList_linesText (lines : List String) :
    (linesText lines).toList = ['\n'].intercalate (lines.map String.toList ++ [[]]) := by
  rw [linesText, String.toList_intercalate]
  induction lines with
  | nil => rfl
  | cons line rest ih =>
    have hcut {first : List Char} {others : List (List Char)} :
        "".toList.intercalate (first :: others) = first ++ "".toList.intercalate others := by
      cases others <;> simp
    have hjoin {others : List (List Char)} (h : others ≠ []) :
        ['\n'].intercalate (line.toList :: others) =
          line.toList ++ '\n' :: ['\n'].intercalate others := by
      obtain ⟨next, others, rfl⟩ := List.exists_cons_of_ne_nil h
      simp
    simp only [List.map_cons, List.cons_append]
    rw [hcut, ih, hjoin (by simp)]
    simp

theorem splitOn_linesText {lines : List String} (h : ∀ line ∈ lines, OneLine line) :
    (linesText lines).toList.splitOn '\n' = (lines ++ [""]).map String.toList := by
  rw [toList_linesText, List.splitOn_intercalate]
  · simp
  · intro line hline
    rcases List.mem_append.mp hline with hline | hline
    · obtain ⟨s, hs, rfl⟩ := List.mem_map.mp hline
      exact h s hs
    · rw [List.mem_singleton.mp hline]
      exact List.not_mem_nil
  · simp

theorem oneLine_describe {r : Diagnostic} (h : OneLine r.message) : OneLine r.describe := by
  have hseverity (severity : Severity) : '\n' ∉ severity.name.toList := by
    cases severity <;> simp [Severity.name]
  have hcode (code : Code) : '\n' ∉ code.name.toList := by
    cases code <;> simp [Code.name]
  unfold Diagnostic.describe
  cases r.span with
  | none => simp_all [OneLine, toString]
  | some span =>
    have hspan := span.oneLine_describe
    simp_all [OneLine, toString]

theorem oneLine_closingLine (a : Analysis) : OneLine a.closingLine := by
  have hcounted (n : Nat) (thing : String) (h : OneLine thing) : OneLine (counted n thing) := by
    unfold counted
    split <;> simp_all [OneLine, toString]
  have herrors := hcounted a.errors.length "error" (by simp [OneLine])
  have hwarnings := hcounted a.warnings.length "warning" (by simp [OneLine])
  unfold closingLine
  simp_all [OneLine]

/-- The lines of a text report are the title, if a deck was read, one line for each diagnostic in
their order, and the counts of errors and warnings, with nothing after the last newline. -/
theorem text_report_lines (settings : Settings) (text : String) :
    (((ofText settings text).render .text).toList.splitOn '\n' =
      (((ofText settings text).model.map fun m => m.deck.title).toList ++
        (ofText settings text).diagnostics.map Diagnostic.describe ++
        [counted ((ofText settings text).diagnostics.countP fun r =>
            r.severity = .fatal ∨ r.severity = .error) "error" ++ ", " ++
          counted ((ofText settings text).diagnostics.countP fun r => r.severity = .warning) "warning",
          ""]).map String.toList) ∧
      (∀ model, (ofText settings text).model = some model → '\n' ∉ model.deck.title.toList) ∧
      ∀ r ∈ (ofText settings text).diagnostics, '\n' ∉ r.message.toList := by
  obtain ⟨htitle, hmessages⟩ := oneLine_ofText settings text
  refine ⟨?_, htitle, hmessages⟩
  have herrors : (ofText settings text).errors.length =
      (ofText settings text).diagnostics.countP fun r =>
        r.severity = .fatal ∨ r.severity = .error := by
    rw [errors, ← List.countP_eq_length_filter]
    apply List.countP_congr
    intro r _
    rw [Diagnostic.isError]
    cases r.severity <;> decide
  have hlines : ∀ line ∈ (ofText settings text).reportLines, OneLine line := by
    intro line hline
    rcases List.mem_append.mp hline with hline | hline
    · rcases List.mem_append.mp hline with hline | hline
      · obtain ⟨model, hmodel, rfl⟩ := Option.map_eq_some_iff.mp (Option.mem_toList.mp hline)
        exact htitle model hmodel
      · obtain ⟨r, hr, rfl⟩ := List.mem_map.mp hline
        exact oneLine_describe (hmessages r hr)
    · rw [List.mem_singleton.mp hline]
      exact (ofText settings text).oneLine_closingLine
  rw [render, splitOn_linesText hlines, reportLines, closingLine, herrors, warnings,
    ← List.countP_eq_length_filter, List.append_assoc]
  rfl

end Analysis

end TransportDeck
