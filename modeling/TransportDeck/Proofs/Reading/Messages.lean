import TransportDeck.Proofs.Card.DataLines
import TransportDeck.Proofs.Like.Chain
import TransportDeck.Proofs.Reading.Reports

namespace TransportDeck

open Card (LineTokens LineGroups LineCell LineName)

section Findings

theorem LayoutFault.oneLine_message (fault : LayoutFault) : OneLine fault.message := by
  have hblock (block : BlockName) : '\n' ∉ block.describe.toList := by
    cases block <;> simp [BlockName.describe]
  unfold message
  cases fault <;> simp [OneLine, toString, hblock]

theorem Span.oneLine_describe (span : Span) : OneLine span.describe := by
  unfold describe
  split <;> simp [OneLine, toString]

theorem Reference.oneLine_message (r : Reference) : OneLine r.message := by
  unfold message
  cases r <;> simp [OneLine, toString]

namespace Finding

def quoted : Finding → List String
  | issue i => [i.message]
  | unknownCard mnemonic => [mnemonic]
  | importanceCount card .. => [card]
  | coefficientCount _ mnemonic .. => [mnemonic]
  | _ => []

theorem oneLine_describeRanges (ranges : List IndexRange) : OneLine (describeRanges ranges) := by
  apply oneLine_intercalate (by simp [OneLine])
  intro s hs
  obtain ⟨r, -, rfl⟩ := List.mem_map.mp hs
  simp [OneLine, toString]

theorem oneLine_numbers {separator : String} (h : OneLine separator) (numbers : List Nat) :
    OneLine (separator.intercalate (numbers.map toString)) := by
  apply oneLine_intercalate h
  intro s hs
  obtain ⟨n, -, rfl⟩ := List.mem_map.mp hs
  simp [OneLine, toString]

theorem oneLine_message {f : Finding} (h : ∀ s ∈ f.quoted, OneLine s) : OneLine f.message := by
  have hspan (span : Span) : '\n' ∉ span.describe.toList := span.oneLine_describe
  have hkind (kind : RecordKind) : '\n' ∉ kind.name.toList := by
    cases kind <;> simp [RecordKind.name]
  have hplace (place : RotationPlace) : '\n' ∉ place.describe.toList := by
    cases place <;> simp [RotationPlace.describe, toString]
  have hscientific (x : Float) : '\n' ∉ (Number.scientific 5 2 x).toList :=
    Number.oneLine_scientific 5 2 x
  have hranges (ranges : List IndexRange) : '\n' ∉ (describeRanges ranges).toList :=
    oneLine_describeRanges ranges
  have hpath (path : List Nat) : '\n' ∉ (describePath path).toList :=
    oneLine_numbers (by simp [OneLine]) path
  have hchain (chain : List Nat) : '\n' ∉ (" -> ".intercalate (chain.map toString)).toList :=
    oneLine_numbers (by simp [OneLine]) chain
  have hcounts (counts : List Nat) : '\n' ∉ (" or ".intercalate (counts.map toString)).toList :=
    oneLine_numbers (by simp [OneLine]) counts
  have hwidths (ranges : List IndexRange) :
      '\n' ∉ ("×".intercalate (ranges.map fun r => toString r.width)).toList := by
    apply oneLine_intercalate (by simp [OneLine])
    intro s hs
    obtain ⟨r, -, rfl⟩ := List.mem_map.mp hs
    simp [OneLine, toString]
  have hentities (counts : EntityCounts) :
      '\n' ∉ (", ".intercalate (counts.values.map fun e => s!"{e.2} {e.1}")).toList := by
    apply oneLine_intercalate (by simp [OneLine])
    intro s hs
    obtain ⟨e, he, rfl⟩ := List.mem_map.mp hs
    have hname : ∀ e ∈ counts.values, OneLine e.1 := by simp [EntityCounts.values, OneLine]
    have hone := hname e he
    simp_all [OneLine, toString]
  unfold quoted at h
  unfold message
  dsimp only
  cases f with
  | undefined r => exact r.oneLine_message
  | _ => simp_all [OneLine, toString]

/-- A message that quotes nothing. -/
theorem oneLine_of_quoted_nil {f : Finding} (h : f.quoted = []) : OneLine f.message := by
  apply oneLine_message
  rw [h]
  exact fun s hs => absurd hs List.not_mem_nil

/-- Apart from issues, only findings about three kinds of counts and names quote anything. -/
theorem quoted_eq_nil {f : Finding}
    (h : f.code ∉ Code.ofFaults ++ [.unknownDataCard, .surfaceCoeffCount]) : f.quoted = [] := by
  cases f with
  | issue i => exact absurd (List.mem_append_left _ i.fault.code_mem_ofFaults) h
  | unknownCard | importanceCount | coefficientCount =>
    exact absurd (by simp [code, Code.ofFaults]) h
  | _ => rfl

end Finding

def LineReports (reports : List Diagnostic) : Prop := ∀ r ∈ reports, OneLine r.message

variable {α : Type}

theorem lineReports_nil : LineReports [] :=
  fun _ hr => absurd hr List.not_mem_nil

theorem LineReports.append {before after : List Diagnostic} (hbefore : LineReports before)
    (hafter : LineReports after) : LineReports (before ++ after) :=
  List.forall_mem_append.mpr ⟨hbefore, hafter⟩

theorem lineReports_flatMap {records : List α} {reports : α → List Diagnostic}
    (h : ∀ a ∈ records, LineReports (reports a)) : LineReports (records.flatMap reports) := by
  intro r hr
  obtain ⟨a, ha, hr⟩ := List.mem_flatMap.mp hr
  exact h a ha r hr

theorem lineReports_findings {findings : List Finding} (span : Option Span)
    (h : ∀ f ∈ findings, ∀ s ∈ f.quoted, OneLine s) :
    LineReports (findings.map (·.report span)) := by
  intro r hr
  obtain ⟨f, hf, rfl⟩ := List.mem_map.mp hr
  exact Finding.oneLine_message (h f hf)

/-- Findings that quote nothing. -/
theorem lineReports_map {records : List α} {finding : α → Finding} {span : α → Option Span}
    (h : ∀ a ∈ records, (finding a).quoted = []) :
    LineReports (records.map fun a => (finding a).report (span a)) := by
  intro r hr
  obtain ⟨a, ha, rfl⟩ := List.mem_map.mp hr
  exact Finding.oneLine_of_quoted_nil (h a ha)

/-- What is reported of cards that give one line issues only, and records that satisfy `P`. -/
theorem BlockRules.lineReports_keepFirst (rules : BlockRules α) {P : α → Prop}
    (hread : ∀ text, (rules.read text).Lines P)
    (hremarks : ∀ before a, P a → ∀ f ∈ rules.remarks before a, ∀ s ∈ f.quoted, OneLine s)
    (haudit : ∀ a, P a → ∀ f ∈ rules.audit a, ∀ s ∈ f.quoted, OneLine s) (cards : List LogicalCard) :
    LineReports (rules.keepFirst [] [] (rules.results cards)).2 := by
  have hresult {span : Span} {result : CardResult α} (h : (span, result) ∈ rules.results cards) :
      result.Lines P := by
    obtain ⟨card, -, hcard⟩ := List.mem_map.mp h
    obtain ⟨-, rfl⟩ := Prod.mk.inj hcard
    exact hread card.text.toList
  apply rules.forall_reports_keepFirst (P := fun r => OneLine r.message)
  · exact fun span issue hmem => hresult hmem
  · intro span a issues hmem
    obtain ⟨ha, hissues⟩ := hresult hmem
    exact ⟨hissues, fun before f hf => Finding.oneLine_message (hremarks before a ha f hf),
      fun key first => Finding.oneLine_of_quoted_nil rfl,
      fun f hf => Finding.oneLine_message (haudit a ha f hf)⟩

theorem BlockRules.forall_kept (rules : BlockRules α) {P : α → Prop}
    (hread : ∀ text, (rules.read text).Lines P) (hplace : ∀ span a, P a → P (rules.place span a))
    (cards : List LogicalCard) :
    ∀ a ∈ (rules.keepFirst [] [] (rules.results cards)).1, P a := by
  intro a ha
  obtain ⟨span, own, issues, hmem, rfl⟩ := rules.exists_result_of_kept [] [] _ a ha
  obtain ⟨card, -, hcard⟩ := List.mem_map.mp hmem
  have hown : (rules.read card.text.toList).Lines P := hread _
  rw [(Prod.mk.inj hcard).2] at hown
  exact hplace span own hown.1

end Findings

section Like

variable {c base : Cell}

theorem lineGroups_replaceOrAppend {groups : List (String × List String)}
    {g : String × List String} (hg : OneLine g.1 ∧ LineTokens g.2) (h : LineGroups groups) :
    LineGroups (replaceOrAppend g.1 g.2 groups) := by
  induction groups with
  | nil => exact fun e he => List.mem_singleton.mp he ▸ hg
  | cons first rest ih =>
    obtain ⟨hfirst, hrest⟩ := List.forall_mem_cons.mp h
    rw [replaceOrAppend]
    split
    · exact List.forall_mem_cons.mpr ⟨hg, hrest⟩
    · exact List.forall_mem_cons.mpr ⟨hfirst, ih hrest⟩

theorem lineCell_overBase (hbase : LineCell base) (hc : LineCell c) : LineCell (base.overBase c) := by
  have hlaid {upper : List (String × List String)} (hupper : LineGroups upper) :
      ∀ {lower}, LineGroups lower →
        LineGroups (upper.foldl (fun kept e => replaceOrAppend e.1 e.2 kept) lower) := by
    induction upper with
    | nil => exact fun hlower => hlower
    | cons e rest ih =>
      obtain ⟨he, hrest⟩ := List.forall_mem_cons.mp hupper
      exact fun hlower => ih hrest (lineGroups_replaceOrAppend he hlower)
  exact hlaid hc hbase

theorem lineCell_foldl_overBase {chain : List Cell} (hchain : ∀ c ∈ chain, LineCell c)
    (hbase : LineCell base) : LineCell (chain.foldl Cell.overBase base) := by
  induction chain generalizing base with
  | nil => exact hbase
  | cons c rest ih =>
    obtain ⟨hc, hrest⟩ := List.forall_mem_cons.mp hchain
    exact ih hrest (lineCell_overBase hbase hc)

theorem reads_applyOverride {keyword : String × List String}
    (h : OneLine keyword.1 ∧ LineTokens keyword.2) :
    Reads (fun _ => True) (c.applyOverride keyword) := by
  obtain ⟨key, values⟩ := keyword
  obtain ⟨hkey, hvalues⟩ := h
  unfold Cell.applyOverride
  split
  case h_1 value hvalue =>
    rw [hvalue] at hvalues
    split
    · split
      · trivial
      · exact Card.quotesLines_of_quoted rfl hvalues.head
    · split
      · trivial
      · exact Card.quotesLines_of_quoted rfl hvalues.head
  · exact Card.quotesLines_of_quoted rfl hkey

theorem quotesLines_applyOverrides {keywords : List (String × List String)}
    (h : LineGroups keywords) : ∀ fault ∈ (c.applyOverrides keywords).2, fault.QuotesLines := by
  induction keywords generalizing c with
  | nil => exact fun fault hfault => absurd hfault List.not_mem_nil
  | cons keyword rest ih =>
    obtain ⟨hkeyword, hrest⟩ := List.forall_mem_cons.mp h
    have hreads := reads_applyOverride (c := c) hkeyword
    rw [Cell.applyOverrides]
    cases happly : c.applyOverride keyword with
    | ok changed => exact ih hrest
    | error fault =>
      rw [happly] at hreads
      exact List.forall_mem_cons.mpr ⟨hreads, ih hrest⟩

theorem quotesLines_settle (h : LineCell c) : ∀ fault ∈ c.settle.2, fault.QuotesLines := by
  have hoverrides : LineGroups (c.params.other.filter isOverride) :=
    fun g hg => h g (List.mem_filter.mp hg).1
  have hfaults := quotesLines_applyOverrides hoverrides (c := { c with params :=
    { c.params with other := c.params.other.filter fun keyword => !isOverride keyword } })
  rw [Cell.settle]
  dsimp only
  split
  · refine List.forall_mem_append.mpr ⟨hfaults, fun fault hfault => ?_⟩
    rw [List.mem_singleton.mp hfault]
    exact Card.quotesLines_of_quoted_nil rfl
  · exact hfaults

theorem lineReports_expand {cells : List Cell} (hcells : ∀ c ∈ cells, LineCell c) :
    LineReports (c.expand cells).2 := by
  unfold Cell.expand
  split
  · exact lineReports_nil
  · split
    case h_1 chain root hfollow =>
      obtain ⟨lower, top, hchain, -, hlower⟩ := isLikeChain_of_followLike hfollow
      rw [List.append_nil] at hlower
      subst hlower
      have hroot := hcells root (hchain.subset List.mem_cons_self)
      have habove := fun c hc => hcells c (hchain.subset (List.mem_cons_of_mem _ hc))
      intro r hr
      obtain ⟨fault, hfault, rfl⟩ := List.mem_map.mp hr
      have hcard : OneLine s!"cell {c.number}" := by simp [OneLine, toString]
      exact oneLine_issue hcard
        (quotesLines_settle (lineCell_foldl_overBase habove hroot) fault hfault)
    · intro r hr
      rw [List.mem_singleton.mp hr]
      exact Finding.oneLine_of_quoted_nil rfl
    · intro r hr
      rw [List.mem_singleton.mp hr]
      exact Finding.oneLine_of_quoted_nil rfl

end Like

namespace Reading

variable (blocks : Blocks)

theorem lineName_data : ∀ card ∈ (Reading.ofBlocks blocks).deck.data, LineName card :=
  DataCard.rules.forall_kept Card.lines_readData (fun _ _ h => ⟨h.mnemonic, h.marker⟩) blocks.data

theorem lineReports_ofBlocks : LineReports (Reading.ofBlocks blocks).reports := by
  have hnone {β : Type} {findings : β → List Finding} (h : ∀ b, findings b = []) (b : β) :
      ∀ f ∈ findings b, ∀ s ∈ f.quoted, OneLine s := by
    rw [h b]
    exact fun f hf => absurd hf List.not_mem_nil
  have hcells := Cell.rules.lineReports_keepFirst Card.lines_readCell
    (fun _ c _ => hnone (fun _ => rfl) c) (fun c _ => hnone (fun _ => rfl) c) blocks.cells
  have hsurfaces := Surface.rules.lineReports_keepFirst Card.lines_readSurface
    (fun _ c _ => hnone (fun _ => rfl) c) (fun c _ => hnone (fun _ => rfl) c) blocks.surfaces
  have hdata := DataCard.rules.lineReports_keepFirst Card.lines_readData ?_ ?_ blocks.data
  · have hwritten : ∀ c ∈ blocks.writtenCells, LineCell c :=
      Cell.rules.forall_kept Card.lines_readCell (fun _ _ h => h) blocks.cells
    have hlike : LineReports (expandLike blocks.writtenCells).2 := by
      rw [expandLike, List.flatMap_map]
      exact lineReports_flatMap fun c _ => lineReports_expand hwritten
    rw [reports_ofBlocks]
    exact ((hcells.append hlike).append hsurfaces).append hdata
  · intro before card hcard f hf
    change f ∈ DataCard.remarks before card at hf
    rw [DataCard.remarks] at hf
    split at hf
    · cases hf
    · rw [List.mem_singleton.mp hf]
      exact fun s hs => List.mem_singleton.mp hs ▸ hcard.mnemonic
  · intro card _ f hf
    change f ∈ DataCard.audit card at hf
    rw [DataCard.audit] at hf
    split at hf
    · cases hf
    · split at hf
      · rw [List.mem_singleton.mp hf]
        exact fun s hs => absurd hs List.not_mem_nil
      · cases hf

end Reading

end TransportDeck
