import TransportDeck.CrossRefs
import TransportDeck.Proofs.Checked.Universes

namespace TransportDeck.Checked

open Number

section Names

def designator (p : Particle) : Option Char := do
  item? (Particle.all.map Particle.designator) (← sub? p.id 1)

def cardName (card : DataCard) : Option String := do
  let marker := (card.marker.map String.singleton).getD ""
  let number := (card.number.map toString).getD ""
  let designators ← card.particles.mapM fun p => do return String.singleton (← designator p)
  let particles := if card.particles.isEmpty then "" else ":" ++ ",".intercalate designators
  return marker ++ card.mnemonic ++ number ++ particles

def checkImportance (d : Deck) (card : DataCard) : Option (List Diagnostic) :=
  match card.payload with
  | .importance values =>
    if values.length = d.cells.length then some []
    else do
      let finding := Finding.importanceCount (← cardName card) d.cells.length values.length
      return [finding.report (some card.span)]
  | _ => some []

theorem designator_eq (p : Particle) : designator p = some p.designator := by
  have hsub : sub? p.id 1 = some (p.id - 1) := sub?_eq (Nat.le_add_left 1 _)
  rw [designator, hsub, Option.bind_eq_bind, Option.bind_some, item?, List.getElem?_map,
    Particle.getElem?_all_id]
  rfl

theorem cardName_eq (card : DataCard) : cardName card = some card.name := by
  have hparticles : (card.particles.mapM fun p => do return String.singleton (← designator p)) =
      some (card.particles.map fun p => String.singleton p.designator) :=
    mapM_eq_some fun p _ => by rw [designator_eq]; rfl
  rw [cardName, hparticles]
  rfl

theorem checkImportance_eq (d : Deck) (card : DataCard) :
    checkImportance d card = some (CrossRefs.checkImportance d card) := by
  unfold checkImportance CrossRefs.checkImportance
  rw [cardName_eq]
  cases card.payload with
  | importance values =>
    dsimp only
    split <;> rfl
  | _ => rfl

end Names

section References

def cellReferences (c : Cell) : Option (List Reference) := do
  let surfaces := c.region.surfaceIds.eraseDups.map (.regionSurface c.number)
  let complements := c.region.complements.map (.complement c.number)
  let material := if c.material = 0 then [] else [.cellMaterial c.number c.material]
  let transform := (c.params.transform.bind (·.reference?)).toList.map (.cellTransform c.number)
  let fill ← match c.params.fill with
    | none => pure []
    | some f => do
      pure ((sortDistinct (← targets f)).map (.fillUniverse c.number) ++
        (f.transforms.filterMap (·.reference?)).map (.fillTransform c.number))
  return surfaces ++ complements ++ material ++ transform ++ fill

def periodicPartner (s : Surface) : Option (Option Nat) :=
  match s.transform.filter (· < 0) with
  | none => some none
  | some n => some <$> unsigned? n

def surfaceReferences (s : Surface) : Option (List Reference) := do
  return s.transformId?.toList.map (.surfaceTransform s.number) ++
    (← periodicPartner s).toList.map (.periodicPartner s.number)

def references (d : Deck) : Option (List Reference) := do
  let cells ← d.cells.mapM cellReferences
  let surfaces ← d.surfaces.mapM surfaceReferences
  return cells.flatten ++ surfaces.flatten ++ d.data.flatMap DataCard.references

variable {c : Cell} {s : Surface} {d : Deck}

theorem cellReferences_eq (h : c.params.IsWord) : cellReferences c = some c.references := by
  unfold cellReferences Cell.references
  cases hf : c.params.fill with
  | none => rfl
  | some f =>
    simp only [targets_eq (h.fill f hf)]
    rfl

theorem surfaceReferences_eq (h : ∀ n ∈ s.transform, fitsInt32 n = true) :
    surfaceReferences s = some s.references := by
  have hpartner : periodicPartner s = some s.periodicPartner? := by
    unfold periodicPartner Surface.periodicPartner?
    cases hn : s.transform.filter (· < 0) with
    | none => rfl
    | some n =>
      have hfits := h n (Option.filter_eq_some_iff.mp hn).1
      simp only [unsigned?_eq hfits]
      rfl
  rw [surfaceReferences, hpartner]
  rfl

theorem references_eq (hcells : ∀ c ∈ d.cells, c.params.IsWord)
    (hsurfaces : ∀ s ∈ d.surfaces, ∀ n ∈ s.transform, fitsInt32 n = true) :
    references d = some d.references := by
  have hcells : d.cells.mapM cellReferences = some (d.cells.map Cell.references) :=
    mapM_eq_some fun c hc => cellReferences_eq (hcells c hc)
  have hsurfaces : d.surfaces.mapM surfaceReferences = some (d.surfaces.map Surface.references) :=
    mapM_eq_some fun s hs => surfaceReferences_eq (hsurfaces s hs)
  rw [references, hcells, Option.bind_eq_bind, Option.bind_some, hsurfaces]
  rfl

end References

section Tables

def referenced (references : List Reference) (kind : TargetKind) : List Nat :=
  sortDistinct (((references.map Reference.target).filter (·.kind == kind)).map (·.number))

def crossRefs (d : Deck) : Option CrossRefs := do
  let owners ← d.cells.mapM fun c => do return (← universeId c, c.number)
  let universes := tabulate (0 :: owners.map (·.1)) fun u =>
    (owners.filter (·.1 == u)).map (·.2)
  let references ← references d
  let filled := sortDistinct (← d.cells.mapM placements).flatten
  let surfaces : Table Nat Span := .ofList (d.surfaces.map fun s => (s.number, s.span))
  let materials : Table Nat Span := .ofList (d.materials.map fun m => (m.number, m.span))
  let transforms : Table Nat Span := .ofList (d.transforms.map fun t => (t.number, t.span))
  let materialUsers := CrossRefs.materialUsersOf d
  return {
    cells := .ofList (d.cells.map fun c => (c.number, c.span))
    surfaces
    materials
    transforms
    tallies := .ofList (d.tallies.map fun t => (t.number, t.span))
    universes
    surfaceUsers := CrossRefs.surfaceUsersOf d
    materialUsers
    unusedSurfaces := CrossRefs.unused surfaces (referenced references .surface)
    unusedMaterials := CrossRefs.unused materials materialUsers.keys
    unusedTransforms := CrossRefs.unused transforms (referenced references .transform)
    unusedUniverses := universes.keys.filter fun u => u != 0 && !filled.contains u }

def crossRefReports (refs : CrossRefs) (d : Deck) : Option (List Diagnostic) := do
  let cells ← d.cells.mapM fun c => do return refs.dangling c.span (← cellReferences c)
  let surfaces ← d.surfaces.mapM fun s => do return refs.dangling s.span (← surfaceReferences s)
  let data ← d.data.mapM fun card => do
    return refs.dangling card.span card.references ++ (← checkImportance d card)
  return cells.flatten ++ surfaces.flatten ++ data.flatten ++ refs.unusedReports

variable {d : Deck}

theorem crossRefs_eq (hcells : ∀ c ∈ d.cells, c.params.IsWord)
    (hsurfaces : ∀ s ∈ d.surfaces, ∀ n ∈ s.transform, fitsInt32 n = true) :
    crossRefs d = some (CrossRefs.ofDeck d) := by
  have howners : (d.cells.mapM fun c => do return (← universeId c, c.number)) =
      some (d.cells.map fun c => (c.universeId, c.number)) :=
    mapM_eq_some fun c hc => by rw [universeId_eq (hcells c hc)]; rfl
  have hplaced : d.cells.mapM placements = some (d.cells.map Cell.placements) :=
    mapM_eq_some fun c hc => placements_eq (hcells c hc)
  have huniverses : (tabulate (0 :: (d.cells.map fun c => (c.universeId, c.number)).map (·.1))
      fun u => ((d.cells.map fun c => (c.universeId, c.number)).filter (·.1 == u)).map (·.2)) =
      CrossRefs.universesOf d := by
    rw [CrossRefs.universesOf, List.map_map]
    congr 1
    funext u
    rw [List.filter_map, List.map_map]
    rfl
  rw [crossRefs, howners]
  simp only [references_eq hcells hsurfaces, hplaced, huniverses, Option.bind_eq_bind,
    Option.bind_some]
  rfl

theorem crossRefReports_eq (refs : CrossRefs) (hcells : ∀ c ∈ d.cells, c.params.IsWord)
    (hsurfaces : ∀ s ∈ d.surfaces, ∀ n ∈ s.transform, fitsInt32 n = true) :
    crossRefReports refs d = some (refs.reports d) := by
  have hcells : (d.cells.mapM fun c => do return refs.dangling c.span (← cellReferences c)) =
      some (d.cells.map fun c => refs.dangling c.span c.references) :=
    mapM_eq_some fun c hc => by rw [cellReferences_eq (hcells c hc)]; rfl
  have hsurfaces :
      (d.surfaces.mapM fun s => do return refs.dangling s.span (← surfaceReferences s)) =
        some (d.surfaces.map fun s => refs.dangling s.span s.references) :=
    mapM_eq_some fun s hs => by rw [surfaceReferences_eq (hsurfaces s hs)]; rfl
  have hdata : (d.data.mapM fun card => do
        return refs.dangling card.span card.references ++ (← checkImportance d card)) =
      some (d.data.map fun card =>
        refs.dangling card.span card.references ++ CrossRefs.checkImportance d card) :=
    mapM_eq_some fun card _ => by rw [checkImportance_eq]; rfl
  rw [crossRefReports, hcells, Option.bind_eq_bind, Option.bind_some, hsurfaces, Option.bind_some,
    hdata]
  rfl

end Tables

end TransportDeck.Checked
