import Mathlib.Algebra.Order.BigOperators.GroupWithZero.List
import Mathlib.Algebra.Order.Ring.Int
import TransportDeck.Fill

namespace TransportDeck

open Number

/-- A product of 64 bits only grows by positive factors. -/
theorem Number.fitsInt64_of_mul {n factor : Int} (hn : 0 < n) (hfactor : 0 < factor)
    (h : fitsInt64 (n * factor) = true) : fitsInt64 n = true := by
  have hgrows : n * 1 ≤ n * factor := Int.mul_le_mul_of_nonneg_left hfactor hn.le
  simp only [fitsInt64, Bool.and_eq_true, decide_eq_true_eq] at h ⊢
  omega

/-- Forming a product step by step in 64 bits gives the exact product or nothing. -/
theorem Number.foldlM_int64?_mul {factors : List Int} (hfactors : ∀ w ∈ factors, 0 < w) :
    ∀ {n : Int}, 0 < n → fitsInt64 n = true →
      factors.foldlM (fun product w => int64? (product * w)) n = int64? (n * factors.prod) := by
  induction factors with
  | nil =>
    intro n _ hn
    rw [List.prod_nil, mul_one, int64?_of_fits hn, List.foldlM_nil]
    rfl
  | cons w rest ih =>
    intro n hpos hn
    have hw : 0 < w := hfactors w List.mem_cons_self
    have hrest : ∀ v ∈ rest, 0 < v := fun v hv => hfactors v (List.mem_cons_of_mem _ hv)
    have hstep : 0 < n * w := mul_pos hpos hw
    rw [List.foldlM_cons, List.prod_cons, ← mul_assoc]
    by_cases hfits : fitsInt64 (n * w) = true
    · rw [int64?_of_fits hfits]
      exact ih hrest hstep hfits
    · have hproduct : ¬ fitsInt64 (n * w * rest.prod) = true := fun h =>
        hfits (fitsInt64_of_mul hstep (List.prod_pos hrest) h)
      rw [int64?, int64?, if_neg hfits, if_neg hproduct]
      rfl

namespace FillArray

variable {a : FillArray}

/-- The exact number of elements within the index ranges, if all widths are positive. -/
def product (a : FillArray) : Int := a.i.width * a.j.width * a.k.width

theorem hasPositiveWidths_iff :
    a.hasPositiveWidths = true ↔ 0 < a.i.width ∧ 0 < a.j.width ∧ 0 < a.k.width := by
  simp [hasPositiveWidths, ranges]

theorem product_pos (h : a.hasPositiveWidths = true) : 0 < a.product := by
  obtain ⟨hi, hj, hk⟩ := hasPositiveWidths_iff.mp h
  exact mul_pos (mul_pos hi hj) hk

theorem declaredLength?_of_positive (h : a.hasPositiveWidths = true) :
    a.declaredLength? = if a.product ≤ maxLength then some a.product.toNat else none := by
  obtain ⟨hi, hj, hk⟩ := hasPositiveWidths_iff.mp h
  have hpositive : ∀ w ∈ a.ranges.map IndexRange.width, 0 < w := by
    simp [ranges, hi, hj, hk]
  have hprod : 1 * (a.ranges.map IndexRange.width).prod = a.product := by
    simp [ranges, product, mul_assoc]
  have hfold := foldlM_int64?_mul hpositive one_pos (by decide)
  rw [List.foldlM_map, hprod] at hfold
  have hfits : fitsInt64 a.product = true ↔ a.product ≤ maxLength := by
    have hpos := product_pos h
    simp only [fitsInt64, maxLength, Bool.and_eq_true, decide_eq_true_eq]
    omega
  rw [declaredLength?, if_pos h, hfold, int64?]
  by_cases hmax : a.product ≤ maxLength
  · rw [if_pos (hfits.mpr hmax), if_pos hmax]
    rfl
  · rw [if_neg (mt hfits.mp hmax), if_neg hmax]
    rfl

/-- The declared length is the exact product where the widths are positive and it can be counted. -/
theorem declaredLength?_eq_some_iff {n : Nat} :
    a.declaredLength? = some n ↔
      a.hasPositiveWidths = true ∧ a.product = n ∧ a.product ≤ maxLength := by
  by_cases h : a.hasPositiveWidths = true
  · have hpos := product_pos h
    rw [declaredLength?_of_positive h]
    split
    case isTrue hmax =>
      simp only [Option.some.injEq, h, hmax, true_and, and_true]
      omega
    case isFalse hmax => simp [hmax]
  · simp [declaredLength?, h]

end FillArray

end TransportDeck
