import TransportDeck.Proofs.Number.Packing

/-!
Rounding of mantissas. A mantissa with the bits that were shifted out of it stands for a number between it
and the next one; it is rounded to the nearest place whatever is known of those bits, and so products and
quotients are.
-/

namespace TransportDeck.Number

open Float.Model Float.Model.UnpackedFloat

section Shifts

variable {em : ExtendedMantissa} {y : ℚ}

def Represents (em : ExtendedMantissa) (y : ℚ) : Prop :=
  match em.roundBit, em.stickyBit with
  | false, false => y = em.mantissa
  | false, true => (em.mantissa : ℚ) < y ∧ y < em.mantissa + 1 / 2
  | true, false => y = em.mantissa + 1 / 2
  | true, true => (em.mantissa : ℚ) + 1 / 2 < y ∧ y < em.mantissa + 1

theorem Represents.shiftRightOne (h : Represents em y) : Represents em.shiftRightOne (y / 2) := by
  obtain ⟨m, roundBit, stickyBit⟩ := em
  obtain ⟨half, hm | hm⟩ : ∃ half, m = 2 * half ∨ m = 2 * half + 1 := ⟨m / 2, by omega⟩
  · have hdiv : m / 2 = half := by omega
    have hmod : (m % 2 != 0) = false := by simp [hm]
    have hcast : (m : ℚ) = 2 * half := by exact_mod_cast hm
    cases roundBit <;> cases stickyBit <;>
      simp only [Represents, ExtendedMantissa.shiftRightOne, hdiv, hmod, hcast, Bool.or_false,
        Bool.or_true] at h ⊢
    · linarith
    · constructor <;> linarith
    · constructor <;> linarith
    · constructor <;> linarith
  · have hdiv : m / 2 = half := by omega
    have hmod : (m % 2 != 0) = true := by simp [hm]
    have hcast : (m : ℚ) = 2 * half + 1 := by exact_mod_cast hm
    cases roundBit <;> cases stickyBit <;>
      simp only [Represents, ExtendedMantissa.shiftRightOne, hdiv, hmod, hcast, Bool.or_false,
        Bool.or_true] at h ⊢
    · linarith
    · constructor <;> linarith
    · constructor <;> linarith
    · constructor <;> linarith

theorem Represents.shiftRight (h : Represents em y) (n : Nat) : Represents (em >>> n) (y / 2 ^ n) := by
  change Represents (n.repeat ExtendedMantissa.shiftRightOne em) _
  induction n with
  | zero => simpa [Nat.repeat] using h
  | succ n ih =>
    rw [Nat.repeat, pow_succ, ← div_div]
    exact ih.shiftRightOne

theorem mantissa_shiftRight (em : ExtendedMantissa) (n : Nat) :
    (em >>> n).mantissa = em.mantissa / 2 ^ n := by
  change (n.repeat ExtendedMantissa.shiftRightOne em).mantissa = _
  induction n with
  | zero => simp [Nat.repeat]
  | succ n ih =>
    rw [Nat.repeat, Nat.pow_succ, ← Nat.div_div_eq_div_mul, ← ih]
    rfl

theorem Represents.bounds (h : Represents em y) : (em.mantissa : ℚ) ≤ y ∧ y < em.mantissa + 1 := by
  obtain ⟨m, roundBit, stickyBit⟩ := em
  cases roundBit <;> cases stickyBit <;> simp only [Represents] at h
  · constructor <;> linarith
  · constructor <;> linarith
  · constructor <;> linarith
  · constructor <;> linarith

/-- The residual bits suffice to round to the nearest whole number. -/
theorem Represents.roundsEven (h : Represents em y) : RoundsEven y em.roundedMantissa := by
  obtain ⟨m, roundBit, stickyBit⟩ := em
  cases roundBit <;> cases stickyBit <;> simp only [Represents] at h
  · have hrounded : (ExtendedMantissa.mk m false false).roundedMantissa = m := rfl
    rw [hrounded]
    constructor <;> intros <;> linarith
  · have hrounded : (ExtendedMantissa.mk m false true).roundedMantissa = m := rfl
    rw [hrounded]
    constructor <;> intros <;> linarith
  · -- half way, and so to the even one of the two
    have hrounded : (ExtendedMantissa.mk m true false).roundedMantissa = m + m % 2 := rfl
    have heven : (m + m % 2) % 2 = 0 := by omega
    have hmod : ((m % 2 : Nat) : ℚ) ≤ 1 := by exact_mod_cast Nat.le_of_lt_succ (Nat.mod_lt m (by decide))
    have hnonneg : (0 : ℚ) ≤ (m % 2 : Nat) := Nat.cast_nonneg _
    rw [hrounded]
    refine ⟨?_, ?_, fun _ => heven, fun _ => heven⟩
    · push_cast
      linarith
    · push_cast
      linarith
  · have hrounded : (ExtendedMantissa.mk m true true).roundedMantissa = m + 1 := rfl
    rw [hrounded]
    constructor <;> intros <;> push_cast at * <;> linarith

end Shifts

section Targets

def target (m : Nat) (e : Int) : Int := max ((m.log2 : Int) + e - 52) (-1074)

theorem targetExponent_eq (m : Nat) (e : Int) :
    Format.binary64.targetExponent (totalExponent m e) = target m e := by
  change max ((m.log2 : Int) + 1 + e - 53) (-1074) = max ((m.log2 : Int) + e - 52) (-1074)
  omega

theorem shiftToTargetExponent_eq (m : Nat) (e : Int) (acc : Accuracy) :
    shiftToTargetExponent Format.binary64 m e acc =
      (ExtendedMantissa.ofMantissaAndAccuracy m acc >>> (target m e - e).toNat,
        e + (target m e - e).toNat) := by
  rw [shiftToTargetExponent, targetExponent_eq]
  rfl

variable {m n : Nat} {e : Int}

theorem log2_le_of_lt (h : m < 2 ^ 53) : m.log2 ≤ 52 := by
  by_cases hm : m = 0
  · simp [hm]
  · exact Nat.le_of_lt_succ ((Nat.log2_lt hm).mpr h)

theorem target_le_of_lt (hm : m < 2 ^ 53) (he : -1074 ≤ e) : target m e ≤ e := by
  have hlog := log2_le_of_lt hm
  rw [target]
  omega

theorem shiftRight_lt (h : m.log2 ≤ 52 + n) : m / 2 ^ n < 2 ^ 53 := by
  rw [Nat.div_lt_iff_lt_mul (Nat.two_pow_pos n), ← Nat.pow_add]
  exact Nat.lt_of_lt_of_le Nat.lt_log2_self (Nat.pow_le_pow_right (by decide) (by omega))

theorem le_shiftRight (hm : m ≠ 0) (h : 52 + n ≤ m.log2) : 2 ^ 52 ≤ m / 2 ^ n := by
  rw [Nat.le_div_iff_mul_le (Nat.two_pow_pos n), ← Nat.pow_add]
  exact (Nat.pow_le_pow_right (by decide) h).trans (Nat.log2_self_le hm)

end Targets

section Rounding

variable {s : Sign} {m r : Nat} {e t : Int} {acc : Accuracy} {y q : ℚ}

structure Rounded (s : Sign) (q : ℚ) (u : UnpackedFloat) : Prop where
  canonical : Canonical u
  sign : signOf u = s
  roundsTo : RoundsTo q (place u)

def normalized (s : Sign) (r : Nat) (t : Int) : UnpackedFloat :=
  let (em, e) := shiftToTargetExponent Format.binary64 r t .exact
  if h : em.mantissa = 0 then .zero s else .finite s em.mantissa e (Nat.pos_of_ne_zero h)

theorem normalized_spec (hr : r ≤ 2 ^ 53) (ht : -1074 ≤ t) (hfull : 2 ^ 52 ≤ r ∨ t = -1074) :
    Canonical (normalized s r t) ∧ signOf (normalized s r t) = s ∧
      place (normalized s r t) = min ((t + 1074).toNat * 2 ^ 52 + r) infinityPlace := by
  rw [normalized, shiftToTargetExponent_eq]
  rcases hr.lt_or_eq with hr | rfl
  · have hshift : (target r t - t).toNat = 0 := by
      have hle := target_le_of_lt hr ht
      omega
    have hmantissa : (ExtendedMantissa.ofMantissaAndAccuracy r .exact >>> 0).mantissa = r := rfl
    simp only [hshift, hmantissa, Nat.cast_zero, Int.add_zero]
    split
    · next hzero =>
      have ht' : t = -1074 := hfull.resolve_left (by omega)
      subst hzero ht'
      exact ⟨trivial, rfl, rfl⟩
    · exact ⟨⟨hr, ht, hfull⟩, rfl, rfl⟩
  · have hlog : (2 ^ 53).log2 = 53 := Nat.log2_two_pow
    have hshift : (target (2 ^ 53) t - t).toNat = 1 := by
      rw [target, hlog]
      omega
    have hmantissa : (ExtendedMantissa.ofMantissaAndAccuracy (2 ^ 53) .exact >>> 1).mantissa = 2 ^ 52 :=
      rfl
    simp only [hshift, hmantissa]
    rw [dif_neg (by decide)]
    refine ⟨⟨by decide, by omega, .inl (Nat.le_refl _)⟩, rfl, ?_⟩
    have hplace : (t + 1 + 1074).toNat * 2 ^ 52 + 2 ^ 52 = (t + 1074).toNat * 2 ^ 52 + 2 ^ 53 := by
      omega
    exact congrArg (min · infinityPlace) hplace

theorem mantissa_ofMantissaAndAccuracy (m : Nat) (acc : Accuracy) :
    (ExtendedMantissa.ofMantissaAndAccuracy m acc).mantissa = m := by
  rcases acc with _ | ⟨_ | _ | _⟩ <;> rfl

/-- At the target exponent a mantissa stands for a number of 53 bits, unless the exponent is the least. -/
theorem bounds_of_target {em : ExtendedMantissa} {z : ℚ} {n : Nat} (hz : Represents em z)
    (hmantissa : em.mantissa = m / 2 ^ n) (hn : target m e = e + n) :
    z < 2 ^ 53 ∧ (2 ^ 52 ≤ z ∨ target m e = -1074) := by
  have hlog : (m.log2 : Int) + e - 52 ≤ target m e := le_max_left _ _
  constructor
  · have hsmall : em.mantissa + 1 ≤ 2 ^ 53 := by
      rw [hmantissa]
      exact shiftRight_lt (by omega)
    have hcast : (em.mantissa : ℚ) + 1 ≤ 2 ^ 53 := by exact_mod_cast hsmall
    exact hz.bounds.2.trans_le hcast
  · by_cases hleast : target m e = -1074
    · exact .inr hleast
    · left
      have htarget : target m e = (m.log2 : Int) + e - 52 := by
        rw [target] at hleast ⊢
        omega
      have hm : m ≠ 0 := by
        rintro rfl
        rw [Nat.log2_zero] at htarget
        omega
      have hlarge : 2 ^ 52 ≤ em.mantissa := by
        rw [hmantissa]
        exact le_shiftRight hm (by omega)
      have hcast : (2 ^ 52 : ℚ) ≤ em.mantissa := by exact_mod_cast hlarge
      exact hcast.trans hz.bounds.1

/-- A mantissa that is not too short is rounded to the nearest number. -/
theorem rounded_roundWithAccuracy
    (hy : Represents (ExtendedMantissa.ofMantissaAndAccuracy m acc) y) (he : e ≤ target m e) :
    Rounded s (y * 2 ^ e) (roundWithAccuracy Format.binary64 s m e acc) := by
  obtain ⟨n, hn⟩ : ∃ n : Nat, target m e = e + n := ⟨(target m e - e).toNat, by omega⟩
  have hmin : -1074 ≤ target m e := le_max_right _ _
  generalize hem : ExtendedMantissa.ofMantissaAndAccuracy m acc >>> n = em
  have hz : Represents em (y / 2 ^ n) := hem ▸ hy.shiftRight n
  have hmantissa : em.mantissa = m / 2 ^ n := by
    rw [← hem, mantissa_shiftRight, mantissa_ofMantissaAndAccuracy]
  obtain ⟨hlt, hfull⟩ := bounds_of_target hz hmantissa hn
  have hround := hz.roundsEven
  have hresult : roundWithAccuracy Format.binary64 s m e acc =
      normalized s em.roundedMantissa (target m e) := by
    have hshift : (target m e - e).toNat = n := by omega
    rw [roundWithAccuracy, shiftToTargetExponent_eq, hshift, hem, ← hn]
    rfl
  obtain ⟨hcanonical, hsign, hplace⟩ := @normalized_spec s em.roundedMantissa (target m e)
    (hround.le_two_pow hlt) hmin (hfull.imp_left hround.two_pow_le)
  rw [hresult]
  refine ⟨hcanonical, hsign, ?_⟩
  have hexponent : target m e = ((target m e + 1074).toNat : Int) - 1074 := by omega
  have hvalue : y * 2 ^ e = y / 2 ^ n * 2 ^ (((target m e + 1074).toNat : Int) - 1074) := by
    rw [← hexponent, hn, zpow_add₀ (by norm_num), zpow_natCast]
    field_simp
  rw [hplace, hvalue]
  exact hround.roundsTo hlt (hfull.imp_right fun h => by omega)

end Rounding

end TransportDeck.Number
