import TransportDeck.Proofs.Analysis.PhaseCodes
import TransportDeck.Proofs.Card.InlineTransforms
import TransportDeck.Proofs.Reading.Places

/-!
Reports on rotations. The check of a cell passes over inline entries that give no transformation; in a
deck that was read from a text there are none, so every rotation that is written down is checked, cell
by cell and then card by card.
-/

namespace TransportDeck

structure InlineTransform where
  place : RotationPlace
  span : Span
  values : List Float
  degrees : Bool

namespace InlineTransform

def transform? (i : InlineTransform) : Option Transform :=
  (TransformSpec.inlined i.values i.degrees).transform?

def ofSpec (place : RotationPlace) (span : Span) : TransformSpec → Option InlineTransform
  | .reference _ => none
  | .inlined values degrees => some ⟨place, span, values, degrees⟩

end InlineTransform

def Cell.inlineTransforms (c : Cell) : List InlineTransform :=
  (match c.params.transform with
    | none => []
    | some spec => (InlineTransform.ofSpec (.cellTransform c.number) c.span spec).toList) ++
  match c.params.fill with
  | none => []
  | some (.simple _ transform) =>
    (transform.bind (InlineTransform.ofSpec (.cellFill c.number) c.span)).toList
  | some (.array a) =>
    a.entries.filterMap fun e => e.transform.bind (InlineTransform.ofSpec (.cellFill c.number) c.span)

def Deck.inlineTransforms (d : Deck) : List InlineTransform :=
  d.cells.flatMap Cell.inlineTransforms

namespace Geometry

def rotationReports (place : RotationPlace) (span : Span) (tolerance : Float) (t : Transform) :
    List Diagnostic :=
  (checkRotation place t tolerance).map (·.report (some span))

def inlineReports (tolerance : Float) (i : InlineTransform) : List Diagnostic :=
  i.transform?.toList.flatMap (rotationReports i.place i.span tolerance)

variable {d : Deck} {c : Cell} {tolerance : Float}

def checkSpec (tolerance : Float) (place : RotationPlace) (spec : TransformSpec) : List Finding :=
  spec.transform?.toList.flatMap fun t => checkRotation place t tolerance

theorem checkInlined_eq (c : Cell) (tolerance : Float) :
    checkInlined c tolerance =
      (cellTransforms c).flatMap fun placed => checkSpec tolerance placed.1 placed.2 := by
  apply List.flatMap_congr
  intro placed _
  unfold checkSpec
  dsimp only
  cases placed.2.transform? with
  | none => rfl
  | some t => exact (List.flatMap_singleton ..).symm

theorem reports_checkSpec (place : RotationPlace) (span : Span) (tolerance : Float)
    (spec : TransformSpec) : (checkSpec tolerance place spec).map (·.report (some span)) =
      (InlineTransform.ofSpec place span spec).toList.flatMap (inlineReports tolerance) := by
  cases spec with
  | reference number => rfl
  | inlined values degrees =>
    have hentries : (InlineTransform.ofSpec place span (.inlined values degrees)).toList =
        [⟨place, span, values, degrees⟩] := rfl
    rw [checkSpec, List.map_flatMap, hentries, List.flatMap_singleton]
    rfl

/-- The entries of several transformations at one place. -/
theorem reports_checkSpecs (place : RotationPlace) (span : Span) (tolerance : Float)
    (specs : List TransformSpec) :
    ((specs.map fun spec => (place, spec)).flatMap
      fun placed => checkSpec tolerance placed.1 placed.2).map (·.report (some span)) =
    (specs.filterMap (InlineTransform.ofSpec place span)).flatMap (inlineReports tolerance) := by
  rw [List.flatMap_map, List.map_flatMap, List.filterMap_eq_flatMap_toList, List.flatMap_assoc]
  exact List.flatMap_congr fun spec _ => reports_checkSpec place span tolerance spec

theorem inlineTransforms_eq (c : Cell) : c.inlineTransforms =
    c.params.transform.toList.filterMap (InlineTransform.ofSpec (.cellTransform c.number) c.span) ++
      (c.params.fill.toList.flatMap Fill.transforms).filterMap
        (InlineTransform.ofSpec (.cellFill c.number) c.span) := by
  unfold Cell.inlineTransforms
  congr 1
  · cases c.params.transform with
    | none => rfl
    | some spec => cases spec <;> rfl
  · cases c.params.fill with
    | none => rfl
    | some f =>
      cases f with
      | simple u transform => rcases transform with _ | _ | _ <;> rfl
      | array a => simp [Fill.transforms, List.filterMap_filterMap]

/-- Inline entries are found and checked in the order in which they stand on the cell. -/
theorem reports_checkInlined (c : Cell) (tolerance : Float) :
    (checkInlined c tolerance).map (·.report (some c.span)) =
      c.inlineTransforms.flatMap (inlineReports tolerance) := by
  rw [checkInlined_eq, cellTransforms, List.flatMap_append, List.map_append, reports_checkSpecs,
    reports_checkSpecs, inlineTransforms_eq, List.flatMap_append]

theorem reportsUnder_checkCell (d : Deck) (c : Cell) (tolerance : Float) :
    reportsUnder Code.ofRotations ((checkCell d tolerance c).map (·.report (some c.span))) =
      c.inlineTransforms.flatMap (inlineReports tolerance) := by
  have hother {findings : List Finding} (h : ∀ f ∈ findings, f.code ∈ Code.ofCellContents) :
      reportsUnder Code.ofRotations (findings.map (·.report (some c.span))) = [] := by
    have hdisjoint : ∀ code ∈ Code.ofCellContents, code ∉ Code.ofRotations := by decide
    exact reportsUnder_map_eq_nil fun f hf => hdisjoint f.code (h f hf)
  have hrotations : reportsUnder Code.ofRotations
      ((checkInlined c tolerance).map (·.report (some c.span))) =
      (checkInlined c tolerance).map (·.report (some c.span)) :=
    reportsUnder_map_eq_self code_mem_checkInlined
  -- of the four checks of a cell only the one of its inline entries is about rotations
  rw [checkCell, List.map_append, List.map_append, List.map_append, reportsUnder_append,
    reportsUnder_append, reportsUnder_append, hother code_mem_checkLattice,
    hother code_mem_checkFill, hother code_mem_checkVolume, hrotations, reports_checkInlined]
  rfl

theorem reports_checkCard {card : DataCard} (tolerance : Float)
    (hspan : ∀ t, card.transform? = some t → t.span = card.span) :
    (checkCard tolerance card).map (·.report (some card.span)) = card.transform?.toList.flatMap
      fun t => rotationReports (.card t.number) t.span tolerance t := by
  unfold checkCard
  cases ht : card.transform? with
  | none => rfl
  | some t =>
    rw [← hspan t ht]
    exact (List.flatMap_singleton ..).symm

/-- Of all reports on the geometry those on rotations are, in their order, what the entries on cells and
then the transform cards give. -/
theorem reportsUnder_rotations (d : Deck) (tolerance : Float)
    (hspans : ∀ card ∈ d.data, ∀ t, card.transform? = some t → t.span = card.span) :
    reportsUnder Code.ofRotations (reports d tolerance) =
      d.inlineTransforms.flatMap (inlineReports tolerance) ++
        d.transforms.flatMap fun t => rotationReports (.card t.number) t.span tolerance t := by
  have hsurfaces : reportsUnder Code.ofRotations
      (d.surfaces.flatMap fun s => (checkSurface s).map (·.report (some s.span))) = [] := by
    have hsurface : Code.surfaceCoeffCount ∉ Code.ofRotations := by decide
    apply reportsUnder_eq_nil
    intro r hr
    obtain ⟨s, _, hr⟩ := List.mem_flatMap.mp hr
    obtain ⟨f, hf, rfl⟩ := List.mem_map.mp hr
    change f.code ∉ Code.ofRotations
    rw [code_of_mem_checkSurface f hf]
    exact hsurface
  have hcards : reportsUnder Code.ofRotations
      (d.data.flatMap fun card => (checkCard tolerance card).map (·.report (some card.span))) =
      d.transforms.flatMap fun t => rotationReports (.card t.number) t.span tolerance t := by
    have hall : ∀ r ∈ d.data.flatMap fun card => (checkCard tolerance card).map
        (·.report (some card.span)), r.code ∈ Code.ofRotations := by
      intro r hr
      obtain ⟨card, _, hr⟩ := List.mem_flatMap.mp hr
      obtain ⟨f, hf, rfl⟩ := List.mem_map.mp hr
      exact code_mem_checkCard f hf
    rw [reportsUnder_eq_self hall, Deck.transforms, List.filterMap_eq_flatMap_toList,
      List.flatMap_assoc]
    exact List.flatMap_congr fun card hcard => reports_checkCard tolerance (hspans card hcard)
  have hcells : reportsUnder Code.ofRotations
      (d.cells.flatMap fun c => (checkCell d tolerance c).map (·.report (some c.span))) =
      d.inlineTransforms.flatMap (inlineReports tolerance) := by
    rw [reportsUnder_flatMap, Deck.inlineTransforms, List.flatMap_assoc]
    exact List.flatMap_congr fun c _ => reportsUnder_checkCell d c tolerance
  rw [reports, reportsUnder_append, reportsUnder_append, hcells, hsurfaces, hcards, List.append_nil]

end Geometry

namespace Reading

variable {blocks : Blocks}

theorem span_of_transform : ∀ card ∈ (Reading.ofBlocks blocks).deck.data,
    ∀ t, card.transform? = some t → t.span = card.span := by
  intro card hcard t ht
  obtain ⟨span, own, _, _, rfl⟩ := DataCard.rules.exists_result_of_kept [] [] _ card hcard
  exact (own.span_of_place span).2.2.1 t ht

theorem exists_transform_of_spec {place : RotationPlace} {span : Span} {spec : TransformSpec}
    {i : InlineTransform} (h : spec.Usable) (hi : InlineTransform.ofSpec place span spec = some i) :
    ∃ t, i.transform? = some t := by
  cases spec with
  | reference number => cases hi
  | inlined values degrees =>
    cases hi
    exact h values degrees rfl

/-- Entries that stand on a cell of the deck have been checked when they were read. -/
theorem exists_transform_of_inline : ∀ i ∈ (Reading.ofBlocks blocks).deck.inlineTransforms,
    ∃ t, i.transform? = some t := by
  intro i hi
  obtain ⟨c, hc, hi⟩ := List.mem_flatMap.mp hi
  have husable := usable_ofBlocks c hc
  rw [Geometry.inlineTransforms_eq] at hi
  rcases List.mem_append.mp hi with hi | hi
  · obtain ⟨spec, hspec, hi⟩ := List.mem_filterMap.mp hi
    exact exists_transform_of_spec (husable.transform spec (Option.mem_toList.mp hspec)) hi
  · obtain ⟨spec, hspec, hi⟩ := List.mem_filterMap.mp hi
    obtain ⟨f, hf, hspec⟩ := List.mem_flatMap.mp hspec
    exact exists_transform_of_spec (husable.fill f (Option.mem_toList.mp hf) spec hspec) hi

/-- In a deck read from a text every transformation with entries of its own, wherever it stands on a
cell, has three, twelve or thirteen of them and can be used. So none of them is passed over: the reports
on rotations are those on each of these in turn and then those on each transform card. -/
theorem rotations_all_checked {text : String} {reading : Reading}
    (h : Reading.ofText text = .ok reading) :
    ∃ transformOf : InlineTransform → Transform,
      (∀ i ∈ reading.deck.inlineTransforms,
        i.values.length ∈ [3, 12, 13] ∧ i.transform? = some (transformOf i)) ∧
      ∀ tolerance, reportsUnder Code.ofRotations (Geometry.reports reading.deck tolerance) =
        (reading.deck.inlineTransforms.flatMap
          fun i => Geometry.rotationReports i.place i.span tolerance (transformOf i)) ++
        reading.deck.transforms.flatMap
          fun t => Geometry.rotationReports (.card t.number) t.span tolerance t := by
  obtain ⟨blocks, rfl⟩ : ∃ blocks, reading = Reading.ofBlocks blocks := by
    unfold Reading.ofText at h
    split at h
    · cases h
    · next blocks _ =>
      cases h
      exact ⟨blocks, rfl⟩
  let transformOf (i : InlineTransform) : Transform :=
    i.transform?.getD ⟨0, default, none, false, 1, .zero⟩
  have hchecked : ∀ i ∈ (Reading.ofBlocks blocks).deck.inlineTransforms,
      i.transform? = some (transformOf i) := by
    intro i hi
    obtain ⟨t, ht⟩ := exists_transform_of_inline i hi
    simp only [transformOf, ht, Option.getD_some]
  refine ⟨transformOf, fun i hi => ⟨Transform.length_of_ofValues? (hchecked i hi), hchecked i hi⟩, ?_⟩
  intro tolerance
  rw [Geometry.reportsUnder_rotations _ tolerance span_of_transform]
  congr 1
  apply List.flatMap_congr
  intro i hi
  rw [Geometry.inlineReports, hchecked i hi]
  exact List.flatMap_singleton ..

def rotatedCells : String :=
  "rotated cells\n" ++
  "1 0 -1 trcl=(1 0 0)\n" ++
  "2 0 1 u=2 fill=0:1 0:0 0:0 3 (0 0 5) 1r\n" ++
  "3 like 1 but *fill=2 (0 0 0 0 90 90 90 0 90 90 90 0)\n" ++
  "\n" ++
  "1 so 1\n" ++
  "\n" ++
  "tr5 0 0 0 1 0 0 0 1 0 0 0 2\n"

theorem rotations_rotatedCells : ∃ reading, ∃ transformOf : InlineTransform → Transform,
    Reading.ofText rotatedCells = .ok reading ∧
    reading.deck.inlineTransforms.map (fun i => (i.place, i.values.length, i.degrees)) =
      [(.cellTransform 1, 3, false), (.cellFill 2, 3, false), (.cellFill 2, 3, false),
        (.cellTransform 3, 3, false), (.cellFill 3, 12, true)] ∧
    reading.deck.transforms.map (·.number) = [5] ∧
    (∀ i ∈ reading.deck.inlineTransforms, i.transform? = some (transformOf i)) ∧
    ∀ tolerance, reportsUnder Code.ofRotations (Geometry.reports reading.deck tolerance) =
      (reading.deck.inlineTransforms.flatMap
        fun i => Geometry.rotationReports i.place i.span tolerance (transformOf i)) ++
      reading.deck.transforms.flatMap
        fun t => Geometry.rotationReports (.card t.number) t.span tolerance t := by
  have hrecords : (Reading.ofText rotatedCells).toOption.map (fun r =>
      (r.deck.inlineTransforms.map (fun i => (i.place, i.values.length, i.degrees)),
        r.deck.transforms.map (·.number))) =
      some ([(.cellTransform 1, 3, false), (.cellFill 2, 3, false), (.cellFill 2, 3, false),
        (.cellTransform 3, 3, false), (.cellFill 3, 12, true)], [5]) := by decide +kernel
  obtain ⟨reading, hread, hrecords⟩ := Option.map_eq_some_iff.mp hrecords
  obtain ⟨hinline, hcards⟩ := Prod.mk.inj hrecords
  have htext : Reading.ofText rotatedCells = .ok reading := ok_of_toOption hread
  obtain ⟨transformOf, hchecked, hreports⟩ := rotations_all_checked htext
  exact ⟨reading, transformOf, htext, hinline, hcards, fun i hi => (hchecked i hi).2, hreports⟩

end Reading

end TransportDeck
