import TransportDeck.Geometry
import TransportDeck.Proofs.Checked.Fills
import TransportDeck.Proofs.Checked.Universes

namespace TransportDeck.Checked

open Number

section Cells

def boundingPlanes (d : Deck) (r : Region) : Option Nat :=
  r.surfaces.foldlM (fun planes term => add? planes (Geometry.termPlanes d term)) 0

def checkLattice (d : Deck) (c : Cell) : Option (List Finding) :=
  match c.params.lattice with
  | none => some []
  | some kind =>
    match Geometry.requiredPlanes.lookup kind with
    | none => some [.latticeKind c.number kind]
    | some expected => do
      let actual ← boundingPlanes d c.region
      if actual = expected then return []
      else return [.latticeSurfaces c.number kind expected actual]

def checkFillArray (cell : Nat) (a : FillArray) : Option (List Finding) := do
  let actual := a.entries.length
  let widths ← a.ranges.mapM width
  if widths.all fun w => 0 < w then
    match ← declaredLength a with
    | none => return [.fillUncountable cell a.ranges actual]
    | some expected =>
      if expected = actual then return []
      else do
        let _ ← int64? (actual - expected)
        return [.fillCount cell a.ranges expected actual]
  else return [.fillWidths cell a.ranges actual]

def checkFill (c : Cell) : Option (List Finding) :=
  match c.params.fill.bind Fill.array? with
  | some a => checkFillArray c.number a
  | none => some []

variable {d : Deck} {c : Cell}

theorem boundingPlanes_eq {r : Region} (h : Geometry.boundingPlanes d r < lengthLimit) :
    boundingPlanes d r = some (Geometry.boundingPlanes d r) := by
  have hfold (terms : List SurfaceRef) (planes : Nat)
      (hterms : planes + terms.foldr (fun term rest => Geometry.termPlanes d term + rest) 0 <
        lengthLimit) :
      terms.foldlM (fun planes term => add? planes (Geometry.termPlanes d term)) planes =
        some (planes + terms.foldr (fun term rest => Geometry.termPlanes d term + rest) 0) := by
    induction terms generalizing planes with
    | nil => rfl
    | cons term rest ih =>
      rw [List.foldr_cons] at hterms
      have hadd : add? planes (Geometry.termPlanes d term) =
          some (planes + Geometry.termPlanes d term) :=
        add?_of_lt (by omega) (by omega)
      rw [List.foldlM_cons, hadd, Option.bind_eq_bind, Option.bind_some, ih _ (by omega),
        List.foldr_cons, Nat.add_assoc]
  have hrun := hfold r.surfaces 0 (by rwa [Nat.zero_add])
  rwa [Nat.zero_add] at hrun

theorem checkLattice_eq (h : c.isLattice = true → Geometry.boundingPlanes d c.region < lengthLimit) :
    checkLattice d c = some (Geometry.checkLattice d c) := by
  unfold checkLattice Geometry.checkLattice
  cases hlattice : c.params.lattice with
  | none => rfl
  | some kind =>
    have hplanes := h (by rw [Cell.isLattice, hlattice]; rfl)
    dsimp only
    cases Geometry.requiredPlanes.lookup kind with
    | none => rfl
    | some expected =>
      rw [boundingPlanes_eq hplanes]
      dsimp only [Option.bind_eq_bind, Option.bind_some]
      split <;> rfl

theorem checkFillArray_eq {a : FillArray} (cell : Nat) (hwords : ∀ r ∈ a.ranges, r.IsWord)
    (hlength : a.entries.length < lengthLimit) :
    checkFillArray cell a = some (Geometry.checkFillArray cell a) := by
  unfold checkFillArray Geometry.checkFillArray
  simp only [widths_eq hwords, all_widths, declaredLength_eq hwords, Option.bind_eq_bind, Option.bind_some]
  split
  · cases hdeclared : a.declaredLength? with
    | none => rfl
    | some expected =>
      obtain ⟨-, hproduct, hmax⟩ := FillArray.declaredLength?_eq_some_iff.mp hdeclared
      have hdiff : int64? ((a.entries.length : Int) - expected) =
          some ((a.entries.length : Int) - expected) := by
        apply int64?_of_fits
        simp only [fitsInt64, FillArray.maxLength, lengthLimit, Bool.and_eq_true,
          decide_eq_true_eq] at *
        omega
      simp only [hdiff, Option.bind_some]
      split <;> rfl
  · rfl

theorem checkFill_eq (hwords : c.params.IsWord)
    (hlength : (FillGraph.fillTargets c).length < lengthLimit) :
    checkFill c = some (Geometry.checkFill c) := by
  unfold checkFill Geometry.checkFill
  unfold FillGraph.fillTargets at hlength
  cases hfill : c.params.fill with
  | none => rfl
  | some f =>
    rw [hfill] at hlength
    cases f with
    | simple u transform => rfl
    | array a =>
      have hentries : a.entries.length < lengthLimit := by simpa [Fill.targets] using hlength
      exact checkFillArray_eq c.number (hwords.fill _ hfill).2 hentries

end Cells

section Rotations

variable {place : RotationPlace} {c : Cell} {s : Surface}

def isOrthonormal (m : Matrix3) (tolerance : Float) : Option Bool := do
  let rows := [m.row1, m.row2, m.row3]
  return Matrix3.isOrthonormal ⟨← item? rows 0, ← item? rows 1, ← item? rows 2⟩ tolerance

def checkMatrix (place : RotationPlace) (m : Matrix3) (tolerance : Float) :
    Option (List Finding) := do
  let det := m.det
  if tolerance < (det.abs - 1).abs then return [.determinant place det]
  else
    return (if ← isOrthonormal m tolerance then [] else [.notOrthonormal place]) ++
      if det < 0 then [.reflection place] else []

def checkRotation (place : RotationPlace) (t : Transform) (tolerance : Float) :
    Option (List Finding) :=
  match t.cosines? with
  | some m => checkMatrix place m tolerance
  | none => some []

def inlined : TransformSpec → Option (Option Transform)
  | .reference _ => some none
  | .inlined values degrees => transformOf 0 values degrees

def checkInlined (c : Cell) (tolerance : Float) : Option (List Finding) := do
  let found ← (Geometry.cellTransforms c).mapM fun (place, spec) => do
    match ← inlined spec with
    | some t => checkRotation place t tolerance
    | none => return []
  return found.flatten

def checkSurface (s : Surface) : Option (List Finding) :=
  match s.kind.coefficientCounts? with
  | none => some []
  | some expected =>
    if expected.contains s.coefficients.length then some []
    else do
      let _ ← item? expected 0
      return [.coefficientCount s.number s.kind.mnemonic expected s.coefficients.length]

def checkCard (tolerance : Float) (card : DataCard) : Option (List Finding) :=
  match card.transform? with
  | some t => checkRotation (.card t.number) t tolerance
  | none => some []

theorem checkRotation_eq (place : RotationPlace) (t : Transform) (tolerance : Float) :
    checkRotation place t tolerance = some (Geometry.checkRotation place t tolerance) := by
  unfold checkRotation Geometry.checkRotation
  cases t.cosines? with
  | none => rfl
  | some m =>
    have hrows : isOrthonormal m tolerance = some (m.isOrthonormal tolerance) := rfl
    dsimp only
    rw [checkMatrix, hrows, Geometry.checkMatrix]
    split <;> rfl

theorem checkInlined_eq (c : Cell) (tolerance : Float) :
    checkInlined c tolerance = some (Geometry.checkInlined c tolerance) := by
  have hspec (spec : TransformSpec) : inlined spec = some spec.transform? := by
    cases spec with
    | reference n => rfl
    | inlined values degrees => exact transformOf_eq 0 values degrees
  unfold checkInlined Geometry.checkInlined
  rw [mapM_eq_some (g := fun e => match e.2.transform? with
    | some t => Geometry.checkRotation e.1 t tolerance
    | none => []) fun e _ => ?_]
  · rfl
  · dsimp only
    rw [hspec]
    cases e.2.transform? with
    | none => rfl
    | some t => exact checkRotation_eq e.1 t tolerance

theorem checkSurface_eq (s : Surface) : checkSurface s = some (Geometry.checkSurface s) := by
  unfold checkSurface Geometry.checkSurface
  cases hcounts : s.kind.coefficientCounts? with
  | none => rfl
  | some expected =>
    obtain ⟨first, hfirst⟩ : ∃ first, item? expected 0 = some first := by
      cases hkind : s.kind with
      | unknown name => simp [hkind, SurfaceKind.coefficientCounts?] at hcounts
      | known shape =>
        rw [hkind] at hcounts
        cases hcounts
        cases shape <;> exact ⟨_, rfl⟩
    dsimp only
    rw [hfirst]
    split <;> rfl

end Rotations

section Deck

variable {d : Deck}

def checkCell (d : Deck) (tolerance : Float) (c : Cell) : Option (List Finding) := do
  return (← checkLattice d c) ++ (← checkFill c) ++ Geometry.checkVolume c ++
    (← checkInlined c tolerance)

def geometryReports (d : Deck) (tolerance : Float) : Option (List Diagnostic) := do
  let cells ← d.cells.mapM fun c => do
    return (← checkCell d tolerance c).map (·.report (some c.span))
  let surfaces ← d.surfaces.mapM fun s => do return (← checkSurface s).map (·.report (some s.span))
  let data ← d.data.mapM fun card => do
    return (← checkCard tolerance card).map (·.report (some card.span))
  return cells.flatten ++ surfaces.flatten ++ data.flatten

theorem checkCell_eq {c : Cell} (tolerance : Float)
    (hplanes : c.isLattice = true → Geometry.boundingPlanes d c.region < lengthLimit)
    (hwords : c.params.IsWord) (hlength : (FillGraph.fillTargets c).length < lengthLimit) :
    checkCell d tolerance c = some (Geometry.checkCell d tolerance c) := by
  rw [checkCell, checkLattice_eq hplanes, checkFill_eq hwords hlength, checkInlined_eq]
  rfl

theorem checkCard_eq (tolerance : Float) (card : DataCard) :
    checkCard tolerance card = some (Geometry.checkCard tolerance card) := by
  unfold checkCard Geometry.checkCard
  cases card.transform? with
  | none => rfl
  | some t => exact checkRotation_eq (.card t.number) t tolerance

theorem geometryReports_eq (tolerance : Float)
    (hplanes : ∀ c ∈ d.cells, c.isLattice = true →
      Geometry.boundingPlanes d c.region < lengthLimit)
    (hwords : ∀ c ∈ d.cells, c.params.IsWord)
    (htargets : (d.cells.flatMap FillGraph.fillTargets).length < lengthLimit) :
    geometryReports d tolerance = some (Geometry.reports d tolerance) := by
  have hcells : (d.cells.mapM fun c => do
        return (← checkCell d tolerance c).map (·.report (some c.span))) =
      some (d.cells.map fun c =>
        (Geometry.checkCell d tolerance c).map (·.report (some c.span))) := by
    refine mapM_eq_some fun c hc => ?_
    have hle := (List.sublist_flatten_of_mem (List.mem_map_of_mem hc :
      FillGraph.fillTargets c ∈ d.cells.map FillGraph.fillTargets)).length_le
    rw [← List.flatMap_def] at hle
    rw [checkCell_eq tolerance (hplanes c hc) (hwords c hc) (Nat.lt_of_le_of_lt hle htargets)]
    rfl
  have hsurfaces :
      (d.surfaces.mapM fun s => do return (← checkSurface s).map (·.report (some s.span))) =
        some (d.surfaces.map fun s => (Geometry.checkSurface s).map (·.report (some s.span))) :=
    mapM_eq_some fun s _ => by rw [checkSurface_eq]; rfl
  have hdata : (d.data.mapM fun card => do
        return (← checkCard tolerance card).map (·.report (some card.span))) =
      some (d.data.map fun card =>
        (Geometry.checkCard tolerance card).map (·.report (some card.span))) :=
    mapM_eq_some fun card _ => by rw [checkCard_eq]; rfl
  rw [geometryReports, hcells, Option.bind_eq_bind, Option.bind_some, hsurfaces, Option.bind_some,
    hdata]
  rfl

end Deck

end TransportDeck.Checked
