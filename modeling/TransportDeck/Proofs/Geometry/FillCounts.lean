import TransportDeck.Proofs.Geometry.Lattices
import TransportDeck.Proofs.Reading.Reports

/-!
The report on the number of lattice elements. Three widths of 33 bits have a product of up to 96
bits; the check counts in 64 bits and still says what exact arithmetic says.
-/

namespace TransportDeck.Geometry

variable {c : Cell} {a : FillArray}

theorem checkFill_array (hfill : c.params.fill = some (.array a)) :
    checkFill c = checkFillArray c.number a := by
  rw [checkFill, hfill]
  rfl

/-- What the check finds, by cases on the exact product. -/
theorem checkFillArray_cases (cell : Nat) (a : FillArray) :
    (checkFillArray cell a = [.fillWidths cell a.ranges a.entries.length] ∧
        ¬ a.hasPositiveWidths = true) ∨
      (checkFillArray cell a = [.fillUncountable cell a.ranges a.entries.length] ∧
        a.hasPositiveWidths = true ∧ FillArray.maxLength < a.product) ∨
      (checkFillArray cell a = [.fillCount cell a.ranges a.product.toNat a.entries.length] ∧
        a.hasPositiveWidths = true ∧ a.product ≤ FillArray.maxLength ∧
        a.product ≠ a.entries.length) ∨
      (checkFillArray cell a = [] ∧ a.hasPositiveWidths = true ∧
        a.product = a.entries.length) := by
  by_cases hpositive : a.hasPositiveWidths = true
  · have hproduct := FillArray.product_pos hpositive
    rw [checkFillArray, if_pos hpositive, FillArray.declaredLength?_of_positive hpositive]
    by_cases hmax : a.product ≤ FillArray.maxLength
    · simp only [if_pos hmax]
      by_cases hlength : a.product.toNat = a.entries.length
      · exact .inr (.inr (.inr ⟨if_pos hlength, hpositive, by omega⟩))
      · exact .inr (.inr (.inl ⟨if_neg hlength, hpositive, hmax, by omega⟩))
    · simp only [if_neg hmax]
      exact .inr (.inl ⟨trivial, hpositive, by omega⟩)
  · rw [checkFillArray, if_neg hpositive]
    exact .inl ⟨rfl, hpositive⟩

/-- A cell is reported for the number of its lattice elements exactly if a width is not positive or
the exact product of the widths is not the number of entries. The declared number is the exact
product wherever that is below 2^63, and the numbers that a report gives are exact. -/
theorem fill_count_exact (hfill : c.params.fill = some (.array a))
    (hlength : a.entries.length < 2 ^ 63) :
    ((∃ r ∈ (checkFill c).map (·.report (some c.span)), r.code = .fillArrayCardinality) ↔
      (∃ r ∈ a.ranges, r.high - r.low + 1 ≤ 0) ∨ a.product ≠ a.entries.length) ∧
      (∀ n : Nat, a.declaredLength? = some n ↔
        (∀ r ∈ a.ranges, 0 < r.high - r.low + 1) ∧ a.product = n ∧ n ≤ 2 ^ 63 - 1) ∧
      ∀ r ∈ (checkFill c).map (·.report (some c.span)), ∀ expected : Int,
        r.value? "expected" = some expected →
          expected = a.product ∧ r.value? "actual" = some (a.entries.length : Int) ∧
            r.value? "diff" = some ((a.entries.length : Int) - expected) ∧
            Number.fitsInt64 ((a.entries.length : Int) - expected) = true := by
  have hwidths : a.hasPositiveWidths = true ↔ ∀ r ∈ a.ranges, 0 < r.high - r.low + 1 := by
    simp only [FillArray.hasPositiveWidths, List.all_eq_true, decide_eq_true_eq]
    rfl
  have hnarrow : (∃ r ∈ a.ranges, r.high - r.low + 1 ≤ 0) ↔ ¬ a.hasPositiveWidths = true := by
    simp [hwidths]
  have hmaxLength : FillArray.maxLength = 2 ^ 63 - 1 := by decide
  have hcases := checkFillArray_cases c.number a
  rw [hnarrow, checkFill_array hfill]
  refine ⟨?_, ?_, ?_⟩
  · rcases hcases with ⟨hcheck, hpositive⟩ | ⟨hcheck, hpositive, hmax⟩ |
      ⟨hcheck, hpositive, -, hne⟩ | ⟨hcheck, hpositive, heq⟩
    · simp [hcheck, hpositive, Finding.report, Finding.code]
    · -- a product that is too large to count is not the number of entries
      have hne : a.product ≠ a.entries.length := by omega
      simp [hcheck, hne, Finding.report, Finding.code]
    · simp [hcheck, hne, Finding.report, Finding.code]
    · simp [hcheck, hpositive, heq]
  · intro n
    rw [FillArray.declaredLength?_eq_some_iff, hwidths]
    have hbound : a.product = n → (a.product ≤ FillArray.maxLength ↔ n ≤ 2 ^ 63 - 1) := by
      intro hn
      omega
    exact and_congr_right fun _ => and_congr_right hbound
  · intro r hr expected hexpected
    rcases hcases with ⟨hcheck, -⟩ | ⟨hcheck, -, -⟩ | ⟨hcheck, hpositive, hmax, -⟩ | ⟨hcheck, -, -⟩
    · simp only [hcheck, List.map_singleton, List.mem_singleton] at hr
      subst hr
      simp [Finding.value?_report, Finding.values, List.lookup_cons] at hexpected
    · simp only [hcheck, List.map_singleton, List.mem_singleton] at hr
      subst hr
      simp [Finding.value?_report, Finding.values, List.lookup_cons] at hexpected
    · simp only [hcheck, List.map_singleton, List.mem_singleton] at hr
      subst hr
      have hproduct := FillArray.product_pos hpositive
      have hexact : (a.product.toNat : Int) = a.product := Int.toNat_of_nonneg hproduct.le
      have hvalue : expected = a.product := by
        simp [Finding.value?_report, Finding.values, List.lookup_cons] at hexpected
        omega
      refine ⟨hvalue, ?_, ?_, ?_⟩
      · simp [Finding.value?_report, Finding.values, List.lookup_cons]
      · simp [Finding.value?_report, Finding.values, List.lookup_cons, hvalue, hproduct.le]
      · simp only [Number.fitsInt64, Bool.and_eq_true, decide_eq_true_eq]
        omega
    · simp [hcheck] at hr

def widestLattice : FillArray where
  i := ⟨-2147483648, 2147483647⟩
  j := ⟨-2147483648, 2147483647⟩
  k := ⟨-2147483648, 2147483647⟩
  entries := [{ signedUniverse := 1 }]

/-- Nothing is counted for the widest lattice, but it is reported: it has 2^96 elements. -/
theorem fill_count_widestLattice :
    widestLattice.entries.length < 2 ^ 63 ∧ widestLattice.product = 2 ^ 96 ∧
      widestLattice.declaredLength? = none ∧
      ∃ r ∈ (checkFill { number := 5, params := { fill := some (.array widestLattice) } }).map
        (·.report (some .zero)), r.code = .fillArrayCardinality := by
  have hlength : widestLattice.entries.length < 2 ^ 63 := by decide
  have hproduct : widestLattice.product = 2 ^ 96 := by decide
  obtain ⟨hreported, hdeclared, -⟩ := fill_count_exact
    (c := { number := 5, params := { fill := some (.array widestLattice) } }) rfl hlength
  refine ⟨hlength, hproduct, ?_, hreported.mpr (.inr ?_)⟩
  · refine Option.eq_none_iff_forall_ne_some.mpr fun n hn => ?_
    obtain ⟨-, hn, hmax⟩ := (hdeclared n).mp hn
    omega
  · rw [hproduct]
    decide

end TransportDeck.Geometry
