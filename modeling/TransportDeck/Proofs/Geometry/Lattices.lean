import Mathlib.Algebra.GroupWithZero.Nat
import TransportDeck.Proofs.Analysis.Errors
import TransportDeck.Proofs.Fill.DeclaredLength
import TransportDeck.Table.Lookup

namespace TransportDeck

/-- The bounding planes that a surface term counts for. A whole box counts for its six sides and a
whole hexagonal prism for its eight; anything else, a single facet included, counts once. -/
def Deck.planeCount (d : Deck) (term : SurfaceRef) : Nat :=
  if term.facet.isSome then 1
  else match (d.findSurface? term.id).map Surface.kind with
    | some (.known .box) | some (.known .parallelepiped) => 6
    | some (.known .hexagonalPrism) | some (.known .hexagon) => 8
    | _ => 1

/-- A lattice of boxes has six bounding planes around its element and one of hexagonal prisms has
eight; there are no other lattices. -/
def Deck.LatticeFits (d : Deck) (c : Cell) : Prop :=
  ∀ kind, c.params.lattice = some kind →
    (kind = 1 ∧ (c.region.surfaces.map d.planeCount).sum = 6) ∨
      (kind = 2 ∧ (c.region.surfaces.map d.planeCount).sum = 8)

structure FillArray.Complete (a : FillArray) : Prop where
  width_i : 0 < a.i.width
  width_j : 0 < a.j.width
  width_k : 0 < a.k.width
  length : a.i.width * a.j.width * a.k.width = a.entries.length

namespace Geometry

variable {d : Deck} {c : Cell} {a : FillArray}

theorem termPlanes_eq (term : SurfaceRef) : termPlanes d term = d.planeCount term := by
  unfold termPlanes Deck.planeCount
  cases term.facet with
  | some facet => rfl
  | none =>
    cases d.findSurface? term.id with
    | none => rfl
    | some s =>
      cases hkind : s.kind with
      | unknown mnemonic => simp [hkind, SurfaceKind.latticePlanes]
      | known shape =>
        cases shape <;> simp [hkind, SurfaceKind.latticePlanes, Shape.latticePlanes]

theorem boundingPlanes_eq (r : Region) :
    boundingPlanes d r = (r.surfaces.map d.planeCount).sum := by
  rw [boundingPlanes, funext termPlanes_eq, List.sum_eq_foldr, List.foldr_map]

theorem checkLattice_eq_nil_iff : checkLattice d c = [] ↔ d.LatticeFits c := by
  unfold checkLattice Deck.LatticeFits
  cases c.params.lattice with
  | none => simp
  | some kind =>
    simp only [Option.some.injEq, forall_eq', boundingPlanes_eq]
    by_cases hbox : kind = 1
    · subst hbox
      have hlookup : requiredPlanes.lookup 1 = some 6 := rfl
      simp [hlookup]
    · by_cases hprism : kind = 2
      · subst hprism
        have hlookup : requiredPlanes.lookup 2 = some 8 := rfl
        simp [hlookup]
      · have hlookup : requiredPlanes.lookup kind = none := by
          rw [requiredPlanes, lookup_other hbox, lookup_other hprism, List.lookup_nil]
        simp [hlookup, hbox, hprism]

/-- Besides the entries being complete their number must not be too large to be counted. -/
theorem checkFillArray_eq_nil_iff {cell : Nat} :
    checkFillArray cell a = [] ↔
      a.Complete ∧ (a.entries.length : Int) ≤ FillArray.maxLength := by
  unfold checkFillArray
  by_cases hpos : a.hasPositiveWidths = true
  · obtain ⟨hi, hj, hk⟩ := FillArray.hasPositiveWidths_iff.mp hpos
    have hproduct : 0 < a.product := FillArray.product_pos hpos
    have hcomplete : a.Complete ↔ a.product = a.entries.length :=
      ⟨FillArray.Complete.length, fun hlength => ⟨hi, hj, hk, hlength⟩⟩
    rw [if_pos hpos, hcomplete, FillArray.declaredLength?_of_positive hpos]
    -- a product that is too large to count is reported, although it may be right
    by_cases hmax : a.product ≤ FillArray.maxLength
    · simp only [if_pos hmax]
      split
      case isTrue hlength => simp; omega
      case isFalse hlength => simp; omega
    · simp only [if_neg hmax]
      simp
      omega
  · have hincomplete : ¬ a.Complete := fun h =>
      hpos (FillArray.hasPositiveWidths_iff.mpr ⟨h.width_i, h.width_j, h.width_k⟩)
    rw [if_neg hpos]
    simp [hincomplete]

theorem isError_of_mem_checkLattice {f : Finding} (h : f ∈ checkLattice d c) :
    f.code.severity.isError = true := by
  unfold checkLattice at h
  split at h
  · exact absurd h List.not_mem_nil
  · split at h
    · rw [List.mem_singleton.mp h]; rfl
    · dsimp only at h
      split at h
      · exact absurd h List.not_mem_nil
      · rw [List.mem_singleton.mp h]; rfl

theorem isError_of_mem_checkFillArray {cell : Nat} {f : Finding} (h : f ∈ checkFillArray cell a) :
    f.code.severity.isError = true := by
  unfold checkFillArray at h
  dsimp only at h
  split at h
  · split at h
    · rw [List.mem_singleton.mp h]; rfl
    · split at h
      · exact absurd h List.not_mem_nil
      · rw [List.mem_singleton.mp h]; rfl
  · rw [List.mem_singleton.mp h]; rfl

/-- Where the geometry reports no error, lattices and their fills are in order. -/
theorem lattices_of_no_errors {tolerance : Float}
    (h : ∀ r ∈ reports d tolerance, r.isError = false) (hc : c ∈ d.cells) :
    d.LatticeFits c ∧ ∀ a, c.params.fill = some (.array a) → a.Complete := by
  have hclean (f : Finding) (hf : f ∈ checkLattice d c ++ checkFill c) :
      f.code.severity.isError = false := by
    refine h (f.report (some c.span)) ?_
    simp only [reports, List.mem_append, List.mem_flatMap]
    refine .inl (.inl ⟨c, hc, List.mem_map_of_mem ?_⟩)
    simp only [checkCell, List.mem_append]
    rcases List.mem_append.mp hf with hf | hf
    · exact .inl (.inl (.inl hf))
    · exact .inl (.inl (.inr hf))
  constructor
  · rw [← checkLattice_eq_nil_iff]
    exact eq_nil_of_clean (fun _ hf => isError_of_mem_checkLattice hf)
      fun f hf => hclean f (List.mem_append_left _ hf)
  · intro a hfill
    have hcheck : checkFill c = checkFillArray c.number a := by
      simp [checkFill, hfill, Fill.array?]
    have hnone : checkFillArray c.number a = [] :=
      eq_nil_of_clean (fun _ hf => isError_of_mem_checkFillArray hf)
        fun f hf => hclean f (List.mem_append_right _ (hcheck ▸ hf))
    exact (checkFillArray_eq_nil_iff.mp hnone).1

end Geometry

end TransportDeck
