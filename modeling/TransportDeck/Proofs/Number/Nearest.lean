import Mathlib
import TransportDeck.Number.Binary

/-!
Rounding to the nearest floating point number. The numbers without a sign are counted by their bits, from
zero up to infinity, which is also their order. A number is rounded to a place if it lies between the
midpoints to the places before and after it; a midpoint belongs to the even one.
-/

namespace TransportDeck.Number

def leastPositive : ℚ := 2 ^ (-1074 : Int)

theorem leastPositive_pos : 0 < leastPositive := by
  rw [leastPositive]
  positivity

/-- How many times the least positive number the number at a place is. -/
def units (k : Nat) : Nat :=
  if k < 2 ^ 52 then k else (2 ^ 52 + k % 2 ^ 52) * 2 ^ (k / 2 ^ 52 - 1)

/-- The number at a place. The place of infinity counts as the next power of two. -/
def magnitude (k : Nat) : ℚ := units k * leastPositive

def midpoint (k : Nat) : ℚ := (magnitude k + magnitude (k + 1)) / 2

def infinityPlace : Nat := 2047 * 2 ^ 52

structure RoundsTo (q : ℚ) (k : Nat) : Prop where
  le_infinity : k ≤ infinityPlace
  above : ∀ j, k = j + 1 → midpoint j ≤ q ∧ (q = midpoint j → k % 2 = 0)
  below : k < infinityPlace → q ≤ midpoint k ∧ (q = midpoint k → k % 2 = 0)

/-- The floating point number with the given sign whose magnitude is nearest to the given one. -/
def IsRounded (negative : Bool) (q : ℚ) (x : Float) : Prop :=
  ∃ k, RoundsTo q k ∧ x.toBits.toNat = (if negative then 2 ^ 63 else 0) + k

section Places

variable {k m e : Nat}

/-- Every place lies in a run of equally spaced numbers. -/
theorem exists_spacing (k : Nat) :
    ∃ e m, k = e * 2 ^ 52 + m ∧ m < 2 ^ 53 ∧ (2 ^ 52 ≤ m ∨ e = 0) := by
  by_cases hk : k < 2 ^ 52
  · exact ⟨0, k, by omega, by omega, .inr rfl⟩
  · have hmod : k % 2 ^ 52 < 2 ^ 52 := Nat.mod_lt k (by decide)
    exact ⟨k / 2 ^ 52 - 1, 2 ^ 52 + k % 2 ^ 52, by omega, by omega, .inl (by omega)⟩

theorem units_spacing (hm : m ≤ 2 ^ 53) (h : 2 ^ 52 ≤ m ∨ e = 0) :
    units (e * 2 ^ 52 + m) = m * 2 ^ e := by
  by_cases hsmall : m < 2 ^ 52
  · have he : e = 0 := h.resolve_left (by omega)
    subst he
    rw [units, if_pos (by omega)]
    omega
  · rcases hm.lt_or_eq with hm | rfl
    · have hdiv : (e * 2 ^ 52 + m) / 2 ^ 52 = e + 1 := by omega
      have hmod : (e * 2 ^ 52 + m) % 2 ^ 52 = m - 2 ^ 52 := by omega
      have hsum : 2 ^ 52 + (m - 2 ^ 52) = m := by omega
      rw [units, if_neg (by omega), hdiv, hmod, hsum, Nat.add_sub_cancel]
    · -- the first number of the next run
      have hdiv : (e * 2 ^ 52 + 2 ^ 53) / 2 ^ 52 = e + 1 + 1 := by omega
      have hmod : (e * 2 ^ 52 + 2 ^ 53) % 2 ^ 52 = 0 := by omega
      rw [units, if_neg (by omega), hdiv, hmod, Nat.add_sub_cancel, Nat.pow_succ]
      ring

theorem units_spacing_succ (hm : m < 2 ^ 53) (h : 2 ^ 52 ≤ m ∨ e = 0) :
    units (e * 2 ^ 52 + m + 1) = (m + 1) * 2 ^ e := by
  rw [Nat.add_assoc, units_spacing hm (h.imp_left Nat.le_succ_of_le)]

theorem units_lt_succ (k : Nat) : units k < units (k + 1) := by
  obtain ⟨e, m, rfl, hm, h⟩ := exists_spacing k
  rw [units_spacing (Nat.le_of_lt hm) h, units_spacing_succ hm h]
  exact Nat.mul_lt_mul_of_pos_right (Nat.lt_succ_self m) (Nat.two_pow_pos e)

theorem magnitude_strictMono : StrictMono magnitude := by
  refine strictMono_nat_of_lt_succ fun k => ?_
  have hunits : (units k : ℚ) < units (k + 1) := by exact_mod_cast units_lt_succ k
  exact mul_lt_mul_of_pos_right hunits leastPositive_pos

theorem midpoint_strictMono : StrictMono midpoint := by
  refine strictMono_nat_of_lt_succ fun k => ?_
  have hbelow := magnitude_strictMono (Nat.lt_succ_self k)
  have habove := magnitude_strictMono (Nat.lt_succ_self (k + 1))
  simp only [midpoint]
  linarith

/-- A power of two in units of the least number. -/
theorem zpow_units (e : Nat) : (2 : ℚ) ^ ((e : Int) - 1074) = 2 ^ e * leastPositive := by
  rw [sub_eq_add_neg, zpow_add₀ (by norm_num), zpow_natCast, leastPositive]

theorem midpoint_eq (k : Nat) :
    midpoint k = ((units k : ℚ) + units (k + 1)) / 2 * leastPositive := by
  rw [midpoint, magnitude, magnitude]
  ring

/-- A number is rounded to one place only: between two places there is a midpoint, and of two neighbours
one is odd. -/
theorem RoundsTo.unique {q : ℚ} {k j : Nat} (hk : RoundsTo q k) (hj : RoundsTo q j) : k = j := by
  have hle {k j : Nat} (hk : RoundsTo q k) (hj : RoundsTo q j) : ¬ k < j := by
    intro hlt
    obtain ⟨i, rfl⟩ : ∃ i, j = i + 1 := ⟨j - 1, by omega⟩
    obtain ⟨hqk, hevenk⟩ := hk.below (Nat.lt_of_lt_of_le hlt hj.le_infinity)
    obtain ⟨hqj, hevenj⟩ := hj.above i rfl
    -- both midpoints are the number itself, so the two places are neighbours and one is odd
    have hki : midpoint k ≤ midpoint i := midpoint_strictMono.monotone (by omega)
    have heqk : q = midpoint k := le_antisymm hqk (hki.trans hqj)
    have heqi : q = midpoint i := le_antisymm (hqk.trans hki) hqj
    have hsame : k = i := midpoint_strictMono.injective (heqk.symm.trans heqi)
    have hk := hevenk heqk
    have hj := hevenj heqi
    omega
  exact Nat.le_antisymm (not_lt.mp (hle hj hk)) (not_lt.mp (hle hk hj))

/-- What is at most half the least positive number is rounded to zero. -/
theorem roundsTo_zero {q : ℚ} (h : q ≤ leastPositive / 2) : RoundsTo q 0 := by
  have hmid : midpoint 0 = leastPositive / 2 := by
    rw [midpoint_eq, units, units, if_pos (by decide), if_pos (by decide)]
    push_cast
    ring
  refine ⟨Nat.zero_le _, ?_, fun _ => ⟨hmid ▸ h, fun _ => rfl⟩⟩
  rintro j ⟨⟩

theorem magnitude_infinityPlace : magnitude infinityPlace = 2 ^ (1024 : Int) := by
  have hunits : units (2046 * 2 ^ 52 + 2 ^ 52) = 2 ^ 52 * 2 ^ 2046 :=
    units_spacing (by decide) (.inl (Nat.le_refl _))
  have hexponent : (1024 : Int) = ((52 + 2046 : Nat) : Int) - 1074 := rfl
  calc magnitude infinityPlace
      = (2 ^ 52 * 2 ^ 2046 : Nat) * leastPositive := by
        rw [infinityPlace, Nat.succ_mul, magnitude, hunits]
    _ = 2 ^ (52 + 2046) * leastPositive := by
        rw [pow_add, Nat.cast_mul, Nat.cast_pow, Nat.cast_pow, Nat.cast_ofNat]
    _ = 2 ^ (1024 : Int) := by rw [hexponent, zpow_units]

/-- What is not less than the power of two after the finite numbers is rounded to infinity. -/
theorem roundsTo_infinityPlace {q : ℚ} (h : 2 ^ (1024 : Int) ≤ q) : RoundsTo q infinityPlace := by
  refine ⟨Nat.le_refl _, fun j hj => ⟨?_, fun _ => by decide⟩, fun hlt => absurd hlt (Nat.lt_irrefl _)⟩
  have hstep : magnitude j < magnitude (j + 1) := magnitude_strictMono (Nat.lt_succ_self j)
  have hlast : magnitude (j + 1) ≤ q := by
    rw [← hj, magnitude_infinityPlace]
    exact h
  rw [midpoint]
  linarith

end Places

section Spacing

variable {z : ℚ} {r e : Nat}

/-- The whole number is nearest to the number; of two equally near ones it is the even one. -/
structure RoundsEven (z : ℚ) (r : Nat) : Prop where
  low : (r : ℚ) - 1 / 2 ≤ z
  high : z ≤ r + 1 / 2
  even_of_low : z = r - 1 / 2 → r % 2 = 0
  even_of_high : z = r + 1 / 2 → r % 2 = 0

namespace RoundsEven

theorem le_two_pow (hr : RoundsEven z r) (hz : z < 2 ^ 53) : r ≤ 2 ^ 53 := by
  by_contra hlarge
  have hcast : ((2 ^ 53 + 1 : Nat) : ℚ) ≤ r := Nat.cast_le.mpr (by omega)
  have hlow := hr.low
  push_cast at hcast
  linarith

theorem two_pow_le (hr : RoundsEven z r) (hz : 2 ^ 52 ≤ z) : 2 ^ 52 ≤ r := by
  by_contra hsmall
  have hcast : (r : ℚ) + 1 ≤ 2 ^ 52 := by exact_mod_cast Nat.lt_of_not_le hsmall
  have hhigh := hr.high
  linarith

/-- The midpoint above a place in a run. Past the end of a run the numbers stand further apart. -/
theorem le_midpoint (hr : RoundsEven z r) (hz : z < 2 ^ 53) (hfull : 2 ^ 52 ≤ z ∨ e = 0) :
    z * 2 ^ ((e : Int) - 1074) ≤ midpoint (e * 2 ^ 52 + r) ∧
      (z * 2 ^ ((e : Int) - 1074) = midpoint (e * 2 ^ 52 + r) → r % 2 = 0) := by
  have hpos : (0 : ℚ) < 2 ^ e * leastPositive := mul_pos (by positivity) leastPositive_pos
  have hfull : 2 ^ 52 ≤ r ∨ e = 0 := hfull.imp_left hr.two_pow_le
  rw [zpow_units]
  rcases (hr.le_two_pow hz).lt_or_eq with hr' | rfl
  · have hunits : units (e * 2 ^ 52 + r) = r * 2 ^ e := units_spacing (Nat.le_of_lt hr') hfull
    have hnext : units (e * 2 ^ 52 + r + 1) = (r + 1) * 2 ^ e :=
      units_spacing_succ hr' hfull
    have hmid : midpoint (e * 2 ^ 52 + r) = (r + 1 / 2) * (2 ^ e * leastPositive) := by
      rw [midpoint_eq, hunits, hnext]
      push_cast
      ring
    rw [hmid]
    exact ⟨mul_le_mul_of_nonneg_right hr.high hpos.le,
      fun heq => hr.even_of_high (mul_right_cancel₀ hpos.ne' heq)⟩
  · have hplace : e * 2 ^ 52 + 2 ^ 53 = (e + 1) * 2 ^ 52 + 2 ^ 52 := by omega
    have hunits : units ((e + 1) * 2 ^ 52 + 2 ^ 52) = 2 ^ 52 * 2 ^ (e + 1) :=
      units_spacing (by decide) (.inl (Nat.le_refl _))
    have hnext : units ((e + 1) * 2 ^ 52 + 2 ^ 52 + 1) = (2 ^ 52 + 1) * 2 ^ (e + 1) :=
      units_spacing_succ (by decide) (.inl (Nat.le_refl _))
    have hmid : midpoint (e * 2 ^ 52 + 2 ^ 53) = (2 ^ 53 + 1) * (2 ^ e * leastPositive) := by
      rw [hplace, midpoint_eq, hunits, hnext]
      push_cast
      ring
    rw [hmid]
    have hlt : z ≤ 2 ^ 53 + 1 := by linarith
    exact ⟨mul_le_mul_of_nonneg_right hlt hpos.le, fun _ => by decide⟩

/-- The midpoint below a place in a run. Before the start of a run the numbers stand closer together. -/
theorem midpoint_le (hr : RoundsEven z r) (hz : z < 2 ^ 53) (hfull : 2 ^ 52 ≤ z ∨ e = 0) {j : Nat}
    (hj : e * 2 ^ 52 + r = j + 1) : midpoint j ≤ z * 2 ^ ((e : Int) - 1074) ∧
      (z * 2 ^ ((e : Int) - 1074) = midpoint j → r % 2 = 0) := by
  have hbound := hr.le_two_pow hz
  rw [zpow_units]
  by_cases hrun : 2 ^ 52 < r ∨ e = 0
  · have hpos : (0 : ℚ) < 2 ^ e * leastPositive := mul_pos (by positivity) leastPositive_pos
    obtain ⟨i, rfl⟩ : ∃ i, r = i + 1 := ⟨r - 1, by omega⟩
    obtain rfl : j = e * 2 ^ 52 + i := by omega
    have hfull : 2 ^ 52 ≤ i ∨ e = 0 := hrun.imp_left Nat.le_of_lt_succ
    have hunits : units (e * 2 ^ 52 + i) = i * 2 ^ e := units_spacing (by omega) hfull
    have hnext : units (e * 2 ^ 52 + i + 1) = (i + 1) * 2 ^ e :=
      units_spacing_succ hbound hfull
    have hmid : midpoint (e * 2 ^ 52 + i) =
        (((i + 1 : Nat) : ℚ) - 1 / 2) * (2 ^ e * leastPositive) := by
      rw [midpoint_eq, hunits, hnext]
      push_cast
      ring
    rw [hmid]
    exact ⟨mul_le_mul_of_nonneg_right hr.low hpos.le,
      fun heq => hr.even_of_low (mul_right_cancel₀ hpos.ne' heq)⟩
  · have hz52 : (2 ^ 52 : ℚ) ≤ z := hfull.resolve_right fun he => hrun (.inr he)
    have hr52 : r = 2 ^ 52 := by
      have hle := hr.two_pow_le hz52
      omega
    obtain ⟨d, rfl⟩ : ∃ d, e = d + 1 := ⟨e - 1, by omega⟩
    obtain rfl : j = d * 2 ^ 52 + (2 ^ 53 - 1) := by omega
    have hpos : (0 : ℚ) < 2 ^ d * leastPositive := mul_pos (by positivity) leastPositive_pos
    have hunits : units (d * 2 ^ 52 + (2 ^ 53 - 1)) = (2 ^ 53 - 1) * 2 ^ d :=
      units_spacing (by decide) (.inl (by decide))
    have hnext : units (d * 2 ^ 52 + (2 ^ 53 - 1) + 1) = (2 ^ 53 - 1 + 1) * 2 ^ d :=
      units_spacing_succ (by decide) (.inl (by decide))
    have hmid : midpoint (d * 2 ^ 52 + (2 ^ 53 - 1)) =
        (2 ^ 53 - 1 / 2) * (2 ^ d * leastPositive) := by
      rw [midpoint_eq, hunits, hnext]
      push_cast
      ring
    have htwice : z * (2 ^ (d + 1) * leastPositive) = 2 * z * (2 ^ d * leastPositive) := by
      ring
    rw [hmid, htwice]
    have hle : (2 ^ 53 - 1 / 2 : ℚ) ≤ 2 * z := by linarith
    exact ⟨mul_le_mul_of_nonneg_right hle hpos.le, fun _ => by omega⟩

/-- A number rounded within its run is rounded to the place of the result, which may be that of
infinity. -/
theorem roundsTo (hr : RoundsEven z r) (hz : z < 2 ^ 53) (hfull : 2 ^ 52 ≤ z ∨ e = 0) :
    RoundsTo (z * 2 ^ ((e : Int) - 1074)) (min (e * 2 ^ 52 + r) infinityPlace) := by
  have heven : (e * 2 ^ 52 + r) % 2 = r % 2 := by omega
  by_cases hfinite : e * 2 ^ 52 + r < infinityPlace
  · rw [Nat.min_eq_left (Nat.le_of_lt hfinite)]
    refine ⟨Nat.le_of_lt hfinite, fun j hj => ?_, fun _ => ?_⟩
    · rw [heven]
      exact hr.midpoint_le hz hfull hj
    · rw [heven]
      exact hr.le_midpoint hz hfull
  · rw [Nat.min_eq_right (Nat.le_of_not_lt hfinite)]
    refine ⟨Nat.le_refl _, fun j hj => ⟨?_, fun _ => by decide⟩, fun h => absurd h (Nat.lt_irrefl _)⟩
    obtain ⟨i, hi⟩ : ∃ i, e * 2 ^ 52 + r = i + 1 := ⟨e * 2 ^ 52 + r - 1, by omega⟩
    have hji : midpoint j ≤ midpoint i := midpoint_strictMono.monotone (by omega)
    exact hji.trans (hr.midpoint_le hz hfull hi).1

end RoundsEven

end Spacing

section Floats

variable {negative : Bool} {q : ℚ} {x y : Float}

theorem IsRounded.unique (hx : IsRounded negative q x) (hy : IsRounded negative q y) : x = y := by
  obtain ⟨k, hk, hx⟩ := hx
  obtain ⟨j, hj, hy⟩ := hy
  rw [hk.unique hj, ← hy] at hx
  exact Float.toBits_inj.mp (UInt64.toNat_inj.mp hx)

end Floats

end TransportDeck.Number
