import Mathlib.Data.List.Basic
import TransportDeck.Analysis
import TransportDeck.Proofs.Reading.LetterCase

namespace TransportDeck

def Payload.withoutComment : Payload → Payload
  | tallyComment _ => tallyComment ""
  | payload => payload

def DataCard.withoutComment (card : DataCard) : DataCard :=
  { card with payload := card.payload.withoutComment }

/-- The deck without what is kept as written: the title, the messages and the texts of tally
comments. -/
def Deck.withoutProse (d : Deck) : Deck :=
  { d with title := "", messages := [], data := d.data.map .withoutComment }

namespace DataCard

variable (card : DataCard)

theorem withoutComment_lower : card.lower.withoutComment = card.withoutComment := by
  unfold lower withoutComment
  cases card.payload <;> rfl

theorem transform?_lower : card.lower.transform? = card.transform? := by
  unfold lower transform?
  cases card.payload <;> rfl

theorem tally?_lower : card.lower.tally? = card.tally? := by
  unfold lower tally?
  cases card.payload <;> rfl

theorem references_lower : card.lower.references = card.references := by
  unfold lower references
  cases card.payload <;> rfl

theorem checkImportance_lower (d : Deck) :
    CrossRefs.checkImportance d.lower card.lower = CrossRefs.checkImportance d card := by
  unfold CrossRefs.checkImportance lower
  cases card.payload <;> rfl

end DataCard

section Phases

variable (d : Deck)

theorem Deck.withoutProse_lower : d.lower.withoutProse = d.withoutProse := by
  have hdata : (d.data.map .lower).map DataCard.withoutComment = d.data.map .withoutComment := by
    rw [List.map_map]
    exact List.map_congr_left fun card _ => card.withoutComment_lower
  exact congrArg (fun data => { d with title := "", messages := [], data }) hdata

/-- What data cards carry does not see the case of their comments. -/
theorem Deck.filterMap_lower {α : Type} {record? : DataCard → Option α}
    (h : ∀ card, record? card.lower = record? card) :
    d.lower.data.filterMap record? = d.data.filterMap record? := by
  change (d.data.map .lower).filterMap record? = _
  rw [List.filterMap_map]
  exact List.filterMap_congr fun card _ => h card

theorem Deck.references_lower : d.lower.references = d.references := by
  have hdata : (d.data.map .lower).flatMap DataCard.references =
      d.data.flatMap DataCard.references := by
    rw [List.flatMap_map]
    exact List.flatMap_congr fun card _ => card.references_lower
  exact congrArg (d.cells.flatMap Cell.references ++ d.surfaces.flatMap Surface.references ++ ·) hdata

theorem CrossRefs.ofDeck_lower : ofDeck d.lower = ofDeck d := by
  have hmaterials : d.lower.materials = d.materials := d.filterMap_lower DataCard.material?_lower
  have htransforms : d.lower.transforms = d.transforms := d.filterMap_lower DataCard.transform?_lower
  have htallies : d.lower.tallies = d.tallies := d.filterMap_lower DataCard.tally?_lower
  have hreferenced (kind : TargetKind) : referenced d.lower kind = referenced d kind := by
    rw [referenced, d.references_lower, referenced]
  simp only [ofDeck, hmaterials, htransforms, htallies, hreferenced]
  rfl

theorem CrossRefs.reports_lower (refs : CrossRefs) : refs.reports d.lower = refs.reports d := by
  have hdata : d.lower.data.flatMap (fun card =>
        refs.dangling card.span card.references ++ checkImportance d.lower card) =
      d.data.flatMap fun card =>
        refs.dangling card.span card.references ++ checkImportance d card := by
    change (d.data.map DataCard.lower).flatMap _ = _
    rw [List.flatMap_map]
    refine List.flatMap_congr fun card _ => ?_
    rw [card.references_lower, card.checkImportance_lower]
    rfl
  rw [reports, hdata]
  rfl

theorem Geometry.reports_lower (tolerance : Float) :
    reports d.lower tolerance = reports d tolerance := by
  have hdata : d.lower.data.flatMap (fun card =>
        (checkCard tolerance card).map (·.report (some card.span))) =
      d.data.flatMap fun card => (checkCard tolerance card).map (·.report (some card.span)) := by
    change (d.data.map DataCard.lower).flatMap _ = _
    rw [List.flatMap_map]
    refine List.flatMap_congr fun card _ => ?_
    rw [checkCard, card.transform?_lower]
    rfl
  rw [reports, hdata]
  rfl

end Phases

namespace Analysis

def lower (a : Analysis) : Analysis :=
  { a with model := a.model.map fun model => { model with deck := model.deck.lower } }

theorem ofReading_lower (settings : Settings) (blocks : Blocks) :
    ofReading settings (.ofBlocks blocks.lower) = (ofReading settings (.ofBlocks blocks)).lower := by
  rw [Reading.ofBlocks_lower]
  have hmodel (d : Deck) : Model.ofDeck d.lower = { Model.ofDeck d with deck := d.lower } := by
    rw [Model.ofDeck, CrossRefs.ofDeck_lower]
    rfl
  have hphases : phases settings
        { Reading.ofBlocks blocks with deck := (Reading.ofBlocks blocks).deck.lower }
        (.ofDeck (Reading.ofBlocks blocks).deck.lower) =
      phases settings (.ofBlocks blocks) (.ofDeck (Reading.ofBlocks blocks).deck) := by
    rw [hmodel, phases, CrossRefs.reports_lower, Geometry.reports_lower]
    rfl
  rw [ofReading]
  simp only [hphases]
  rw [hmodel]
  rfl

/-- Letter case has no meaning. Texts that are the same in lower case cannot be divided for the same
fault, or they have equal reports, cross references and hierarchies, and decks that differ in their
titles, messages and tally comments at most. -/
theorem ofText_congr_lower (text text' : String)
    (h : Text.lower text.toList = Text.lower text'.toList) :
    (∃ fault, Blocks.ofText text = .error fault ∧ Blocks.ofText text' = .error fault) ∨
    ∀ settings, ∃ model model',
      (ofText settings text).model = some model ∧ (ofText settings text').model = some model' ∧
      (ofText settings text).diagnostics = (ofText settings text').diagnostics ∧
      model.crossRefs = model'.crossRefs ∧ model.hierarchy = model'.hierarchy ∧
      model.deck.withoutProse = model'.deck.withoutProse := by
  -- both are compared with the division of the text that they are in lower case
  have hdivided : (Blocks.ofText text).map Blocks.lower = (Blocks.ofText text').map Blocks.lower := by
    rw [Blocks.ofText, ← Blocks.ofLines_lower, ← Text.lines_lower, h, Text.lines_lower,
      Blocks.ofLines_lower]
    rfl
  cases hblocks : Blocks.ofText text with
  | error fault =>
    cases hblocks' : Blocks.ofText text' with
    | error fault' =>
      rw [hblocks, hblocks'] at hdivided
      cases hdivided
      exact .inl ⟨fault, rfl, rfl⟩
    | ok blocks' =>
      rw [hblocks, hblocks'] at hdivided
      cases hdivided
  | ok blocks =>
    cases hblocks' : Blocks.ofText text' with
    | error fault' =>
      rw [hblocks, hblocks'] at hdivided
      cases hdivided
    | ok blocks' =>
      rw [hblocks, hblocks'] at hdivided
      have hlower : blocks.lower = blocks'.lower := Except.ok.inj hdivided
      refine .inr fun settings => ?_
      have hanalysis := ofReading_lower settings blocks
      rw [hlower, ofReading_lower] at hanalysis
      have hmodel := Option.some.inj (congrArg Analysis.model hanalysis)
      have hdeck := congrArg Model.deck hmodel
      rw [ofText, hblocks, ofText, hblocks']
      refine ⟨_, _, rfl, rfl, (congrArg Analysis.diagnostics hanalysis).symm,
        (congrArg Model.crossRefs hmodel).symm, (congrArg Model.hierarchy hmodel).symm, ?_⟩
      rw [← Deck.withoutProse_lower, ← Deck.withoutProse_lower (Model.deck _)]
      exact congrArg Deck.withoutProse hdeck.symm

def shoutedSphere : String :=
  "SPHERE\n1 0 -1 IMP:N=1\n\n1 SO 1\n\nFC4 FLUX\nF4:N 1\n"

theorem ofText_shoutedSphere :
    Text.lower shoutedSphere.toList = Text.lower (Text.lowered shoutedSphere).toList ∧
    (Blocks.ofText shoutedSphere).isOk = true ∧
    ∀ settings, ∃ model model',
      (ofText settings shoutedSphere).model = some model ∧
      (ofText settings (Text.lowered shoutedSphere)).model = some model' ∧
      (ofText settings shoutedSphere).diagnostics =
        (ofText settings (Text.lowered shoutedSphere)).diagnostics ∧
      model.crossRefs = model'.crossRefs ∧ model.hierarchy = model'.hierarchy ∧
      model.deck.withoutProse = model'.deck.withoutProse := by
  have hlower : Text.lower shoutedSphere.toList =
      Text.lower (Text.lowered shoutedSphere).toList := by
    rw [Text.toList_lowered, Text.lower_lower]
  have hdivided : (Blocks.ofText shoutedSphere).isOk = true := by decide +kernel
  refine ⟨hlower, hdivided, ?_⟩
  refine (ofText_congr_lower shoutedSphere (Text.lowered shoutedSphere) hlower).resolve_left ?_
  rintro ⟨fault, hfault, _⟩
  rw [hfault] at hdivided
  cases hdivided

end Analysis

end TransportDeck
