import Mathlib.Data.List.Nodup
import Mathlib.Tactic.Lift
import Mathlib.Tactic.Ring
import TransportDeck.Proofs.Fill.DeclaredLength

namespace TransportDeck

open Number

structure IndexRange.IsWord (r : IndexRange) : Prop where
  low : fitsInt32 r.low = true
  high : fitsInt32 r.high = true

/-- A number in a range is as many steps above the lower bound as there are below the width. -/
theorem IndexRange.exists_steps {r : IndexRange} {n : Int} (h : r.holds n = true) :
    ∃ steps : Nat, n = r.low + steps ∧ (steps : Int) < r.width := by
  simp only [holds, Bool.and_eq_true, decide_eq_true_eq] at h
  refine ⟨(n - r.low).toNat, ?_, ?_⟩
  · omega
  · rw [width]
    omega

theorem IndexRange.holds_steps {r : IndexRange} {steps : Nat} (h : (steps : Int) < r.width) :
    r.holds (r.low + steps) = true := by
  rw [width] at h
  simp only [holds, Bool.and_eq_true, decide_eq_true_eq]
  omega

/-- Steps within a range of 32 bits stay in 32 bits. -/
theorem IndexRange.IsWord.wrap32_steps {r : IndexRange} (hword : r.IsWord) {steps : Nat}
    (h : (steps : Int) < r.width) : wrap32 (r.low + steps) = r.low + steps := by
  obtain ⟨hlow, hhigh⟩ := hword
  rw [width] at h
  apply wrap32_of_fits
  simp only [fitsInt32, Bool.and_eq_true, decide_eq_true_eq] at hlow hhigh ⊢
  omega

section Digits

variable {wi wj wk di dj dk n : Nat}

/-- Three digits make a place below the product of their bounds. -/
theorem place_lt_product (hi : di < wi) (hj : dj < wj) (hk : dk < wk) :
    di + wi * (dj + wj * dk) < wi * wj * wk := by
  calc di + wi * (dj + wj * dk) < wi + wi * (dj + wj * dk) := by omega
    _ = wi * (dj + 1 + wj * dk) := by ring
    _ ≤ wi * (wj + wj * dk) := Nat.mul_le_mul_left wi (by omega)
    _ = wi * wj * (dk + 1) := by ring
    _ ≤ wi * wj * wk := Nat.mul_le_mul_left (wi * wj) hk

theorem place_of_digits (n wi wj : Nat) :
    n % wi + wi * (n / wi % wj + wj * (n / (wi * wj))) = n := by
  rw [← Nat.div_div_eq_div_mul, Nat.mod_add_div, Nat.mod_add_div]

/-- The digits of a place. -/
theorem digits_of_place (hi : di < wi) (hj : dj < wj) :
    (di + wi * (dj + wj * dk)) % wi = di ∧
      (di + wi * (dj + wj * dk)) / wi % wj = dj ∧
      (di + wi * (dj + wj * dk)) / (wi * wj) = dk := by
  have hrows : (di + wi * (dj + wj * dk)) / wi = dj + wj * dk := by
    rw [Nat.add_mul_div_left _ _ (by omega), Nat.div_eq_of_lt hi, Nat.zero_add]
  refine ⟨?_, ?_, ?_⟩
  · rw [Nat.add_mul_mod_self_left, Nat.mod_eq_of_lt hi]
  · rw [hrows, Nat.add_mul_mod_self_left, Nat.mod_eq_of_lt hj]
  · rw [← Nat.div_div_eq_div_mul, hrows, Nat.add_mul_div_left _ _ (by omega),
      Nat.div_eq_of_lt hj, Nat.zero_add]

end Digits

namespace FillArray

structure InRange (a : FillArray) (index : LatticeIndex) : Prop where
  i : a.i.holds index.i = true
  j : a.j.holds index.j = true
  k : a.k.holds index.k = true

/-- The place of a lattice index in storage order, over all integers. -/
def offset (a : FillArray) (index : LatticeIndex) : Int :=
  (index.i - a.i.low) +
    a.i.width * ((index.j - a.j.low) + a.j.width * (index.k - a.k.low))

structure Sized (a : FillArray) : Prop where
  words : ∀ r ∈ a.ranges, r.IsWord
  positive : a.hasPositiveWidths = true
  countable : a.product ≤ maxLength

variable {a : FillArray} {index : LatticeIndex} {n : Nat}

/-- The widths as natural numbers. -/
theorem Sized.exists_widths (h : a.Sized) : ∃ wi wj wk : Nat,
    a.i.width = wi ∧ a.j.width = wj ∧ a.k.width = wk ∧ 0 < wi ∧ 0 < wj ∧ 0 < wk ∧
      wi * wj * wk ≤ maxLength.toNat := by
  obtain ⟨hi, hj, hk⟩ := hasPositiveWidths_iff.mp h.positive
  have hmax := h.countable
  rw [product] at hmax
  lift a.i.width to ℕ using hi.le with wi
  lift a.j.width to ℕ using hj.le with wj
  lift a.k.width to ℕ using hk.le with wk
  refine ⟨wi, wj, wk, rfl, rfl, rfl, ?_, ?_, ?_, ?_⟩
  · exact_mod_cast hi
  · exact_mod_cast hj
  · exact_mod_cast hk
  · apply Int.le_toNat (by decide) |>.mpr
    push_cast
    exact hmax

/-- Below the product no digit leaves its range, so nothing wraps around. -/
theorem Sized.indexAt_eq (h : a.Sized) {wi wj wk : Nat} (hwi : a.i.width = wi)
    (hwj : a.j.width = wj) (hwk : a.k.width = wk) (hn : n < wi * wj * wk) :
    (n % wi < wi ∧ n / wi % wj < wj ∧ n / (wi * wj) < wk) ∧
      a.indexAt n =
        ⟨a.i.low + (n % wi : Nat), a.j.low + (n / wi % wj : Nat),
          a.k.low + (n / (wi * wj) : Nat)⟩ := by
  obtain ⟨hi, hj, hk⟩ := hasPositiveWidths_iff.mp h.positive
  have hmax := h.countable
  rw [product, hwi, hwj, hwk] at hmax
  rw [hwi] at hi
  rw [hwj] at hj
  rw [hwk] at hk
  have hdi : n % wi < wi := Nat.mod_lt _ (by omega)
  have hdj : n / wi % wj < wj := Nat.mod_lt _ (by omega)
  have hdk : n / (wi * wj) < wk := Nat.div_lt_of_lt_mul hn
  have hlayer : min (wi * wj) maxLength.toNat = wi * wj := by
    have hgrows : wi * wj * 1 ≤ wi * wj * wk := Nat.mul_le_mul_left _ (by omega)
    have hmax' : ((wi * wj * wk : Nat) : Int) ≤ maxLength := by exact_mod_cast hmax
    omega
  refine ⟨⟨hdi, hdj, hdk⟩, ?_⟩
  have hwi' : (max a.i.width 1).toNat = wi := by omega
  have hwj' : (max a.j.width 1).toNat = wj := by omega
  rw [indexAt]
  simp only [hwi', hwj', hlayer]
  rw [(h.words a.i (by simp [ranges])).wrap32_steps (by omega),
    (h.words a.j (by simp [ranges])).wrap32_steps (by omega),
    (h.words a.k (by simp [ranges])).wrap32_steps (by omega)]

/-- The element counted off as number `n` is in range and has its place at `n`. -/
theorem Sized.indexAt_inRange (h : a.Sized) (hn : (n : Int) < a.product) :
    a.InRange (a.indexAt n) ∧ a.offset (a.indexAt n) = n := by
  obtain ⟨wi, wj, wk, hwi, hwj, hwk, -, -, -, -⟩ := h.exists_widths
  have hbelow : n < wi * wj * wk := by
    rw [product, hwi, hwj, hwk] at hn
    exact_mod_cast hn
  obtain ⟨⟨hdi, hdj, hdk⟩, hindex⟩ := h.indexAt_eq hwi hwj hwk hbelow
  rw [hindex]
  refine ⟨⟨?_, ?_, ?_⟩, ?_⟩
  · exact IndexRange.holds_steps (by omega)
  · exact IndexRange.holds_steps (by omega)
  · exact IndexRange.holds_steps (by omega)
  · have hplace := congrArg (Nat.cast (R := Int)) (place_of_digits n wi wj)
    push_cast at hplace
    simp only [offset, hwi, hwj, add_sub_cancel_left]
    push_cast
    exact hplace

/-- The digits of an index in range, and its place among the elements. -/
theorem Sized.exists_digits (h : a.Sized) (hindex : a.InRange index) :
    ∃ wi wj wk di dj dk : Nat,
      (a.i.width = wi ∧ a.j.width = wj ∧ a.k.width = wk) ∧
        (di < wi ∧ dj < wj ∧ dk < wk) ∧ wi * wj * wk ≤ maxLength.toNat ∧
        index = ⟨a.i.low + di, a.j.low + dj, a.k.low + dk⟩ := by
  obtain ⟨wi, wj, wk, hwi, hwj, hwk, -, -, -, hmax⟩ := h.exists_widths
  obtain ⟨di, hdi, hlti⟩ := IndexRange.exists_steps hindex.i
  obtain ⟨dj, hdj, hltj⟩ := IndexRange.exists_steps hindex.j
  obtain ⟨dk, hdk, hltk⟩ := IndexRange.exists_steps hindex.k
  rw [hwi] at hlti
  rw [hwj] at hltj
  rw [hwk] at hltk
  refine ⟨wi, wj, wk, di, dj, dk, ⟨hwi, hwj, hwk⟩, ⟨?_, ?_, ?_⟩, hmax, ?_⟩
  · exact_mod_cast hlti
  · exact_mod_cast hltj
  · exact_mod_cast hltk
  · rw [← hdi, ← hdj, ← hdk]

theorem offset_of_digits {wi wj di dj dk : Nat} (hwi : a.i.width = wi) (hwj : a.j.width = wj) :
    a.offset ⟨a.i.low + di, a.j.low + dj, a.k.low + dk⟩ = (di + wi * (dj + wj * dk) : Nat) := by
  simp only [offset, hwi, hwj, add_sub_cancel_left]
  push_cast
  rfl

theorem Sized.offset_bounds (h : a.Sized) (hindex : a.InRange index) :
    0 ≤ a.offset index ∧ a.offset index < a.product := by
  obtain ⟨wi, wj, wk, di, dj, dk, ⟨hwi, hwj, hwk⟩, ⟨hdi, hdj, hdk⟩, -, rfl⟩ :=
    h.exists_digits hindex
  have hlt := place_lt_product hdi hdj hdk
  rw [offset_of_digits hwi hwj, product, hwi, hwj, hwk]
  exact ⟨Int.natCast_nonneg _, by exact_mod_cast hlt⟩

/-- No step towards the place of an index in range leaves 64 bits. -/
theorem Sized.place?_eq (h : a.Sized) (hindex : a.InRange index) :
    a.place? index = some (a.offset index) := by
  obtain ⟨wi, wj, wk, di, dj, dk, ⟨hwi, hwj, hwk⟩, ⟨hdi, hdj, hdk⟩, hmax, rfl⟩ :=
    h.exists_digits hindex
  have hplace := place_lt_product hdi hdj hdk
  have hrows : wj * dk + dj ≤ wi * (dj + wj * dk) := by
    calc wj * dk + dj = 1 * (dj + wj * dk) := by ring
      _ ≤ wi * (dj + wj * dk) := Nat.mul_le_mul_right _ (by omega)
  have hsmall {m : Nat} (hm : m ≤ di + wi * (dj + wj * dk)) : int64? (m : Int) = some (m : Int) := by
    apply int64?_of_fits
    have : maxLength.toNat = 9223372036854775807 := rfl
    simp only [fitsInt64, Bool.and_eq_true, decide_eq_true_eq]
    omega
  have hlayers : (wj : Int) * dk = (wj * dk : Nat) := by push_cast; rfl
  have hrow : ((wj * dk : Nat) : Int) + dj = (wj * dk + dj : Nat) := by push_cast; rfl
  have hbefore : ((wj * dk + dj : Nat) : Int) * wi = (wi * (dj + wj * dk) : Nat) := by
    push_cast
    ring
  have hlast : ((wi * (dj + wj * dk) : Nat) : Int) + di = (di + wi * (dj + wj * dk) : Nat) := by
    push_cast
    ring
  rw [offset_of_digits hwi hwj, place?]
  simp only [hwi, hwj, add_sub_cancel_left, Option.bind_eq_bind]
  rw [hlayers, hsmall (by omega), Option.bind_some, hrow, hsmall (by omega), Option.bind_some,
    hbefore, hsmall (by omega), Option.bind_some, hlast, hsmall le_rfl]

/-- Counting off to the place of an index in range leads back to the index. -/
theorem Sized.indexAt_offset (h : a.Sized) (hindex : a.InRange index) :
    a.indexAt (a.offset index).toNat = index := by
  obtain ⟨wi, wj, wk, di, dj, dk, ⟨hwi, hwj, hwk⟩, ⟨hdi, hdj, hdk⟩, -, rfl⟩ :=
    h.exists_digits hindex
  have hlt := place_lt_product hdi hdj hdk
  obtain ⟨hi, hj, hk⟩ := digits_of_place hdi hdj
  rw [offset_of_digits hwi hwj, Int.toNat_natCast, (h.indexAt_eq hwi hwj hwk hlt).2, hi, hj, hk]

theorem Sized.get?_eq (h : a.Sized) (hindex : a.InRange index) :
    a.get? index = a.entries[(a.offset index).toNat]? := by
  have hnonneg := (h.offset_bounds hindex).1
  rw [get?, if_pos (by simp [hindex.i, hindex.j, hindex.k]), h.place?_eq hindex]
  exact if_neg (by omega)

theorem inRange_of_get? {e : FillEntry} (h : a.get? index = some e) : a.InRange index := by
  rw [get?] at h
  split at h
  case isTrue hholds =>
    simp only [Bool.and_eq_true] at hholds
    exact ⟨hholds.1.1, hholds.1.2, hholds.2⟩
  case isFalse => cases h

theorem getElem?_positions : a.positions[n]? = a.entries[n]?.map fun e => (a.indexAt n, e) := by
  rw [positions, List.getElem?_mapIdx]

theorem indices_eq : a.positions.map Prod.fst = (List.range a.entries.length).map a.indexAt := by
  apply List.ext_getElem
  · simp [positions]
  · intro n hlisted hplace
    simp [positions]

/-- Different places have different indices, as an index determines its place. -/
theorem Sized.nodup_indices (h : a.Sized) (hlength : (a.entries.length : Int) ≤ a.product) :
    (a.positions.map Prod.fst).Nodup := by
  rw [indices_eq]
  apply List.nodup_range.map_on
  intro m hm n hn hsame
  have hplace {place : Nat} (hmem : place ∈ List.range a.entries.length) :
      a.offset (a.indexAt place) = place := by
    have hlt := List.mem_range.mp hmem
    exact (h.indexAt_inRange (by omega)).2
  have hcast := (hplace hm).symm.trans ((congrArg a.offset hsame).trans (hplace hn))
  exact_mod_cast hcast

theorem Sized.mem_indices (h : a.Sized) (hindex : a.InRange index)
    (hbelow : a.offset index < a.entries.length) : index ∈ a.positions.map Prod.fst := by
  have hnonneg := (h.offset_bounds hindex).1
  rw [indices_eq]
  refine List.mem_map.mpr ⟨(a.offset index).toNat, ?_, h.indexAt_offset hindex⟩
  rw [List.mem_range]
  omega

/-- The element that is found at an index is listed with that index. -/
theorem Sized.mem_positions (h : a.Sized) {e : FillEntry} (hget : a.get? index = some e) :
    (index, e) ∈ a.positions := by
  have hindex := inRange_of_get? hget
  have hentry : a.entries[(a.offset index).toNat]? = some e := by
    rw [← h.get?_eq hindex, hget]
  have hposition : a.positions[(a.offset index).toNat]? = some (index, e) := by
    rw [getElem?_positions, hentry, Option.map_some, h.indexAt_offset hindex]
  exact List.mem_of_getElem? hposition

theorem sized_of_declaredLength? {p : Nat} (hwords : ∀ r ∈ a.ranges, r.IsWord)
    (hp : a.declaredLength? = some p) : a.Sized ∧ a.product = p := by
  obtain ⟨hpositive, hproduct, hmax⟩ := declaredLength?_eq_some_iff.mp hp
  exact ⟨⟨hwords, hpositive, hmax⟩, hproduct⟩

/-- Listing the elements and looking one up are inverse. Place `n` is listed with an index in range
that leads to place `n` and to the same element; no index is listed twice; an element is found
exactly at the indices in range whose place holds one, and then it is listed; and a complete array
lists every index in range once. -/
theorem lattice_places_inverse {p : Nat} (hwords : ∀ r ∈ a.ranges, r.IsWord)
    (hp : a.declaredLength? = some p) (hlength : a.entries.length ≤ p) :
    (a.positions.length = a.entries.length ∧
      ∀ (n : Nat) (hn : n < a.entries.length), ∃ index : LatticeIndex,
        a.positions[n]? = some (index, a.entries[n]) ∧ a.InRange index ∧
          (index.i - a.i.low) +
            a.i.width * ((index.j - a.j.low) + a.j.width * (index.k - a.k.low)) = n ∧
          a.get? index = some a.entries[n]) ∧
      (a.positions.map Prod.fst).Nodup ∧
      (∀ index : LatticeIndex,
        ((a.get? index).isSome = true ↔
          a.InRange index ∧ a.offset index < a.entries.length) ∧
        ∀ e, a.get? index = some e → (index, e) ∈ a.positions) ∧
      (a.entries.length = p → ∀ index, a.InRange index →
        (a.positions.map Prod.fst).count index = 1) := by
  obtain ⟨h, hproduct⟩ := sized_of_declaredLength? hwords hp
  have hfits : (a.entries.length : Int) ≤ a.product := by omega
  have hnodup := h.nodup_indices hfits
  refine ⟨⟨?_, ?_⟩, hnodup, ?_, ?_⟩
  · rw [positions, List.length_mapIdx]
  · intro n hn
    obtain ⟨hindex, hplace⟩ := h.indexAt_inRange (n := n) (by omega)
    refine ⟨a.indexAt n, ?_, hindex, hplace, ?_⟩
    · rw [getElem?_positions, List.getElem?_eq_getElem hn, Option.map_some]
    · rw [h.get?_eq hindex, hplace, Int.toNat_natCast, List.getElem?_eq_getElem hn]
  · intro index
    refine ⟨⟨?_, ?_⟩, fun e => h.mem_positions⟩
    · intro hsome
      obtain ⟨e, he⟩ := Option.isSome_iff_exists.mp hsome
      have hindex := inRange_of_get? he
      have hnonneg := (h.offset_bounds hindex).1
      rw [h.get?_eq hindex] at he
      obtain ⟨hlt, -⟩ := List.getElem?_eq_some_iff.mp he
      exact ⟨hindex, by omega⟩
    · rintro ⟨hindex, hbelow⟩
      have hnonneg := (h.offset_bounds hindex).1
      rw [h.get?_eq hindex, List.getElem?_eq_getElem (by omega)]
      rfl
  · intro hcomplete index hindex
    have hbelow := (h.offset_bounds hindex).2
    exact List.count_eq_one_of_mem hnodup (h.mem_indices hindex (by omega))

def cornerLattice : FillArray where
  i := ⟨-2147483648, -2147483647⟩
  j := ⟨2147483646, 2147483647⟩
  k := ⟨0, 0⟩
  entries := [{ signedUniverse := 1 }, { signedUniverse := 2 }, { signedUniverse := 3 },
    { signedUniverse := -2147483648 }]

theorem lattice_places_cornerLattice :
    (∀ r ∈ cornerLattice.ranges, r.IsWord) ∧ cornerLattice.declaredLength? = some 4 ∧
      cornerLattice.entries.length ≤ 4 ∧
      cornerLattice.InRange ⟨-2147483647, 2147483647, 0⟩ ∧
      (cornerLattice.positions.map Prod.fst).count ⟨-2147483647, 2147483647, 0⟩ = 1 := by
  have hwords : ∀ r ∈ cornerLattice.ranges, r.IsWord := by
    simp only [cornerLattice, ranges, List.forall_mem_cons]
    exact ⟨⟨rfl, rfl⟩, ⟨rfl, rfl⟩, ⟨rfl, rfl⟩, fun _ h => absurd h List.not_mem_nil⟩
  have hdeclared : cornerLattice.declaredLength? = some 4 := by decide
  have hlast : cornerLattice.InRange ⟨-2147483647, 2147483647, 0⟩ := ⟨rfl, rfl, rfl⟩
  obtain ⟨-, -, -, hcomplete⟩ := lattice_places_inverse hwords hdeclared le_rfl
  exact ⟨hwords, hdeclared, le_rfl, hlast, hcomplete rfl _ hlast⟩

end FillArray

end TransportDeck
