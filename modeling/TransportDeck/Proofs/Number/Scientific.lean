import TransportDeck.Proofs.Number.ModelRounding

namespace TransportDeck.Number

open Float.Model Float.Model.UnpackedFloat

section Operations

variable {s₁ s₂ : Sign} {m₁ m₂ : Nat} {e₁ e₂ : Int}

theorem represents_exact (m : Nat) :
    Represents (ExtendedMantissa.ofMantissaAndAccuracy m .exact) m :=
  rfl

theorem represents_fraction (m : Nat) {num den : Nat} (h : num < den) :
    Represents (ExtendedMantissa.ofMantissaAndAccuracy m (accuracyOfFraction num den))
      (m + num / den) := by
  have hden : (0 : ℚ) < den := by exact_mod_cast Nat.zero_lt_of_lt h
  have hlt : (num : ℚ) / den < 1 := (div_lt_one hden).mpr (by exact_mod_cast h)
  unfold accuracyOfFraction
  split
  · next hzero =>
    subst hzero
    simp [Represents, ExtendedMantissa.ofMantissaAndAccuracy]
  · next hne =>
    have hnum : (0 : ℚ) < num := by exact_mod_cast Nat.pos_of_ne_zero hne
    have hpos : (0 : ℚ) < num / den := div_pos hnum hden
    rcases lt_trichotomy (2 * num) den with hcmp | hcmp | hcmp
    · have hhalf : (num : ℚ) / den < 1 / 2 := by
        have hcast : (2 : ℚ) * num < den := by exact_mod_cast hcmp
        rw [div_lt_div_iff₀ hden two_pos]
        linarith
      rw [Nat.compare_eq_lt.mpr hcmp]
      exact ⟨lt_add_of_pos_right _ hpos, (add_lt_add_iff_left _).mpr hhalf⟩
    · have hhalf : (num : ℚ) / den = 1 / 2 := by
        have hcast : (2 : ℚ) * num = den := by exact_mod_cast hcmp
        rw [div_eq_div_iff hden.ne' two_ne_zero]
        linarith
      rw [Nat.compare_eq_eq.mpr hcmp]
      exact congrArg _ hhalf
    · have hhalf : (1 : ℚ) / 2 < num / den := by
        have hcast : (den : ℚ) < 2 * num := by exact_mod_cast hcmp
        rw [div_lt_div_iff₀ two_pos hden]
        linarith
      rw [Nat.compare_eq_gt.mpr hcmp]
      exact ⟨(add_lt_add_iff_left _).mpr hhalf, (add_lt_add_iff_left _).mpr hlt⟩

/-- Products are rounded to the nearest number if they are not too short. -/
theorem rounded_mul {h₁ : 0 < m₁} {h₂ : 0 < m₂} (h : e₁ + e₂ ≤ target (m₁ * m₂) (e₁ + e₂)) :
    Rounded (s₁ * s₂) (m₁ * 2 ^ e₁ * (m₂ * 2 ^ e₂))
      (UnpackedFloat.mul Format.binary64 (.finite s₁ m₁ e₁ h₁) (.finite s₂ m₂ e₂ h₂)) := by
  have hvalue : (m₁ * 2 ^ e₁ * (m₂ * 2 ^ e₂) : ℚ) = ((m₁ * m₂ : Nat) : ℚ) * 2 ^ (e₁ + e₂) := by
    rw [zpow_add₀ (by norm_num)]
    push_cast
    ring
  rw [hvalue]
  exact rounded_roundWithAccuracy (represents_exact _) h

/-- A dividend that is long enough has a quotient with 53 bits. -/
theorem le_shiftLeft_div {n : Nat} (h₁ : m₁ ≠ 0) (h₂ : 0 < m₂) (h : m₂.log2 + 53 ≤ m₁.log2 + n) :
    2 ^ 52 ≤ m₁ <<< n / m₂ := by
  rw [Nat.le_div_iff_mul_le h₂, Nat.shiftLeft_eq]
  calc 2 ^ 52 * m₂ ≤ 2 ^ 52 * 2 ^ (m₂.log2 + 1) :=
        Nat.mul_le_mul_left _ (Nat.le_of_lt Nat.lt_log2_self)
    _ = 2 ^ (m₂.log2 + 53) := by rw [← Nat.pow_add]; congr 1; omega
    _ ≤ 2 ^ (m₁.log2 + n) := Nat.pow_le_pow_right (by decide) h
    _ = 2 ^ m₁.log2 * 2 ^ n := Nat.pow_add _ _ _
    _ ≤ m₁ * 2 ^ n := Nat.mul_le_mul_right _ (Nat.log2_self_le h₁)

/-- Quotients are rounded to the nearest number. -/
theorem rounded_div {h₁ : 0 < m₁} {h₂ : 0 < m₂} :
    Rounded (s₁ / s₂) (m₁ * 2 ^ e₁ / (m₂ * 2 ^ e₂))
      (UnpackedFloat.div Format.binary64 (.finite s₁ m₁ e₁ h₁) (.finite s₂ m₂ e₂ h₂)) := by
  -- the dividend is shifted until the quotient has enough bits or the least exponent
  obtain ⟨T, hT⟩ : ∃ T, T = max ((m₁.log2 : Int) + e₁ - (m₂.log2 + e₂) - 53) (-1074) := ⟨_, rfl⟩
  obtain ⟨n, hn⟩ : ∃ n : Nat, e₁ - e₂ - min (e₁ - e₂) T = n :=
    ⟨(e₁ - e₂ - min (e₁ - e₂) T).toNat, by omega⟩
  have hresult : UnpackedFloat.div Format.binary64 (.finite s₁ m₁ e₁ h₁) (.finite s₂ m₂ e₂ h₂) =
      roundWithAccuracy Format.binary64 (s₁ / s₂) (m₁ <<< n / m₂) (min (e₁ - e₂) T)
        (accuracyOfFraction (m₁ <<< n % m₂) m₂) := by
    have htarget : Format.binary64.targetExponent (totalExponent m₁ e₁ - totalExponent m₂ e₂) = T := by
      rw [hT]
      change max ((m₁.log2 : Int) + 1 + e₁ - ((m₂.log2 : Int) + 1 + e₂) - 53) (-1074) = _
      omega
    simp only [UnpackedFloat.div, divCore, htarget, hn, Int.toNat_natCast]
  have hvalue : (m₁ * 2 ^ e₁ / (m₂ * 2 ^ e₂) : ℚ) =
      (((m₁ <<< n / m₂ : Nat) : ℚ) + (m₁ <<< n % m₂ : Nat) / m₂) * 2 ^ min (e₁ - e₂) T := by
    have hm₂ : (m₂ : ℚ) ≠ 0 := by exact_mod_cast h₂.ne'
    have hquotient : ((m₁ <<< n / m₂ : Nat) : ℚ) + (m₁ <<< n % m₂ : Nat) / m₂ = m₁ * 2 ^ n / m₂ := by
      rw [eq_div_iff hm₂, add_mul, div_mul_cancel₀ _ hm₂]
      exact_mod_cast (Nat.div_add_mod' _ _).trans (Nat.shiftLeft_eq _ _)
    have hexponent : min (e₁ - e₂) T = e₁ - e₂ - n := by omega
    rw [hquotient, hexponent, zpow_sub₀ two_ne_zero, zpow_sub₀ two_ne_zero, zpow_natCast]
    field_simp
  have hlong : min (e₁ - e₂) T ≤ target (m₁ <<< n / m₂) (min (e₁ - e₂) T) := by
    rw [target]
    by_cases hleast : T = -1074
    · omega
    · have hquotient := le_shiftLeft_div h₁.ne' h₂ (show m₂.log2 + 53 ≤ m₁.log2 + n by omega)
      have hlog : 52 ≤ (m₁ <<< n / m₂).log2 := (Nat.le_log2 (by omega)).mpr hquotient
      omega
  rw [hresult, hvalue]
  exact rounded_roundWithAccuracy (represents_fraction _ (Nat.mod_lt _ h₂)) hlong

end Operations

section WholeNumbers

variable {m m₁ m₂ : Nat} {e e₁ e₂ : Int}

def full (m : Nat) (e : Int) (h : 0 < m) : UnpackedFloat :=
  .finite .positive (m <<< (52 - m.log2)) (e - (52 - m.log2 : Nat))
    (by rw [Nat.shiftLeft_eq]; positivity)

theorem shiftLeft_full (hpos : 0 < m) (h : m < 2 ^ 53) :
    2 ^ 52 ≤ m <<< (52 - m.log2) ∧ m <<< (52 - m.log2) < 2 ^ 53 := by
  have hlog := log2_le_of_lt h
  have hbits : m.log2 + (52 - m.log2) = 52 := by omega
  rw [Nat.shiftLeft_eq]
  constructor
  · calc 2 ^ 52 = 2 ^ m.log2 * 2 ^ (52 - m.log2) := by rw [← Nat.pow_add, hbits]
      _ ≤ m * 2 ^ (52 - m.log2) := Nat.mul_le_mul_right _ (Nat.log2_self_le hpos.ne')
  · calc m * 2 ^ (52 - m.log2) < 2 ^ (m.log2 + 1) * 2 ^ (52 - m.log2) :=
          Nat.mul_lt_mul_of_pos_right Nat.lt_log2_self (Nat.two_pow_pos _)
      _ = 2 ^ 53 := by rw [Nat.pow_succ, mul_right_comm, ← Nat.pow_add, hbits]; rfl

theorem value_full (m : Nat) (e : Int) :
    ((m <<< (52 - m.log2) : Nat) : ℚ) * 2 ^ (e - (52 - m.log2 : Nat)) = m * 2 ^ e := by
  rw [Nat.shiftLeft_eq, zpow_sub₀ two_ne_zero, zpow_natCast]
  push_cast
  field_simp

/-- A mantissa with all its bits is left as it is. -/
theorem roundWithAccuracy_of_full {s : Sign} (hlow : 2 ^ 52 ≤ m) (hhigh : m < 2 ^ 53) (he : -1074 ≤ e) :
    roundWithAccuracy Format.binary64 s m e .exact = .finite s m e (by omega) := by
  have hlog : m.log2 = 52 := log2_eq_of_full hlow hhigh
  have hshift : (target m e - e).toNat = 0 := by
    rw [target, hlog]
    omega
  have hmantissa : (ExtendedMantissa.ofMantissaAndAccuracy m .exact >>> 0).roundedMantissa = m := rfl
  rw [roundWithAccuracy, shiftToTargetExponent_eq, hshift]
  simp only [hmantissa, Nat.cast_zero, Int.add_zero, shiftToTargetExponent_eq, hshift]
  exact dif_neg (by change m ≠ 0; omega)

/-- Whole numbers below `2 ^ 53` are converted exactly. -/
theorem unpack_toFloat (hpos : 0 < m) (h : m < 2 ^ 53) :
    m.toUInt64.toFloat.toModel.unpack = full m 0 hpos := by
  have hm : m.toUInt64.toNat = m := Nat.mod_eq_of_lt (by omega)
  obtain ⟨hlow, hhigh⟩ := shiftLeft_full hpos h
  have hlog := log2_le_of_lt h
  have hround : UnpackedFloat.ofUInt64 Format.binary64 m.toUInt64 = full m 0 hpos := by
    have hcompare : compare (m : Int) 0 = .gt := Int.compare_eq_gt.mpr (by omega)
    have hshift : (0 - target m 0).toNat = 52 - m.log2 := by
      rw [target]
      omega
    rw [UnpackedFloat.ofUInt64, hm, UnpackedFloat.ofNat, UnpackedFloat.ofInt, UnpackedFloat.normalize,
      hcompare]
    simp only [UnpackedFloat.round, targetExponent_eq, decreaseExponent, hshift, Int.toNat_natCast]
    exact roundWithAccuracy_of_full hlow hhigh (by omega)
  have hcanonical : Canonical (full m 0 hpos) := ⟨hhigh, by omega, .inl hlow⟩
  have hplace := place_finite hcanonical
  change (Float.Model.pack (UnpackedFloat.ofUInt64 Format.binary64 m.toUInt64)).unpack = _
  rw [hround]
  exact unpack_pack hcanonical (by rw [full] at *; omega)

def powerOfTen (e : Fin 23) : Float :=
  have hsize : e.val < Float.exactlyRepresentablePowersOfTen.size := e.isLt
  Float.exactlyRepresentablePowersOfTen[e.val]

/-- They are powers of five times powers of two. -/
theorem unpack_powerOfTen (e : Fin 23) :
    (powerOfTen e).toModel.unpack = full (5 ^ e.val) e.val (Nat.pow_pos (Nat.succ_pos 4)) := by
  fin_cases e <;> rfl

/-- The product of two full mantissas is never too short. -/
theorem rounded_mul_full {hpos₁ : 0 < m₁} {hpos₂ : 0 < m₂} (h₁ : m₁ < 2 ^ 53) (h₂ : m₂ < 2 ^ 53) :
    Rounded .positive (m₁ * 2 ^ e₁ * (m₂ * 2 ^ e₂))
      (UnpackedFloat.mul Format.binary64 (full m₁ e₁ hpos₁) (full m₂ e₂ hpos₂)) := by
  rw [← value_full m₁, ← value_full m₂]
  refine @rounded_mul .positive .positive _ _ _ _ _ _ ?_
  have hlong : 2 ^ 52 * 2 ^ 52 ≤ m₁ <<< (52 - m₁.log2) * m₂ <<< (52 - m₂.log2) :=
    Nat.mul_le_mul (shiftLeft_full hpos₁ h₁).1 (shiftLeft_full hpos₂ h₂).1
  have hlog : 104 ≤ (m₁ <<< (52 - m₁.log2) * m₂ <<< (52 - m₂.log2)).log2 :=
    (Nat.le_log2 (by omega)).mpr hlong
  rw [target]
  omega

theorem rounded_div_full {hpos₁ : 0 < m₁} {hpos₂ : 0 < m₂} :
    Rounded .positive (m₁ * 2 ^ e₁ / (m₂ * 2 ^ e₂))
      (UnpackedFloat.div Format.binary64 (full m₁ e₁ hpos₁) (full m₂ e₂ hpos₂)) := by
  rw [← value_full m₁, ← value_full m₂]
  exact @rounded_div .positive .positive _ _ _ _ _ _

end WholeNumbers

section Conversion

variable {q : ℚ} {u : UnpackedFloat} {m : Nat} {e : Int}

theorem rounded_zero (h : q ≤ leastPositive / 2) : Rounded .positive q (.zero .positive) :=
  ⟨trivial, rfl, roundsTo_zero h⟩

theorem rounded_infinity (h : 2 ^ (1024 : Int) ≤ q) : Rounded .positive q (.infinity .positive) :=
  ⟨trivial, rfl, roundsTo_infinityPlace h⟩

/-- Large powers of ten are beyond all finite numbers. -/
theorem le_mul_zpow_of_large (hm : m ≠ 0) (he : 1024 ≤ e) : (2 : ℚ) ^ (1024 : Int) ≤ m * 10 ^ e := by
  have hone : (1 : ℚ) ≤ m := by exact_mod_cast Nat.one_le_iff_ne_zero.mpr hm
  calc (2 : ℚ) ^ (1024 : Int) ≤ 2 ^ e := zpow_le_zpow_right₀ one_le_two he
    _ ≤ 10 ^ e := zpow_le_zpow_left₀ (by omega) (by norm_num) (by norm_num)
    _ ≤ m * 10 ^ e := le_mul_of_one_le_left (by positivity) hone

/-- Small powers of ten are not even half the least positive number. -/
theorem mul_zpow_le_of_small (he : e < -(2 ^ 11 + (m.log2 : Int))) : m * 10 ^ e ≤ leastPositive / 2 := by
  have hm : (m : ℚ) ≤ 2 ^ ((m.log2 + 1 : Nat) : Int) := by
    rw [zpow_natCast]
    exact_mod_cast Nat.le_of_lt Nat.lt_log2_self
  have hten : (10 : ℚ) ^ e ≤ 2 ^ e := by
    have hinv : (2 : ℚ) ^ (-e) ≤ 10 ^ (-e) :=
      zpow_le_zpow_left₀ (by omega) (by norm_num) (by norm_num)
    rwa [zpow_neg, zpow_neg, inv_le_inv₀ (by positivity) (by positivity)] at hinv
  calc (m : ℚ) * 10 ^ e ≤ 2 ^ ((m.log2 + 1 : Nat) : Int) * 2 ^ e :=
        mul_le_mul hm hten (by positivity) (by positivity)
    _ = 2 ^ (((m.log2 + 1 : Nat) : Int) + e) := (zpow_add₀ two_ne_zero _ _).symm
    _ ≤ 2 ^ (-1074 - 1 : Int) := zpow_le_zpow_right₀ one_le_two (by omega)
    _ = leastPositive / 2 := by rw [zpow_sub₀ two_ne_zero, zpow_one, leastPositive]

/-- With 53 more bits a product with a power of ten is never too short. -/
theorem rounded_mul_ten_pow {k : Nat} {h₁ : 0 < m <<< 53} {h₂ : 0 < 10 ^ k} :
    Rounded .positive (m * 10 ^ (k : Int)) (UnpackedFloat.mul Format.binary64
      (.finite .positive (m <<< 53) (-(53 : Nat)) h₁) (.finite .positive (10 ^ k) 0 h₂)) := by
  have hvalue : (m : ℚ) * (10 : ℚ) ^ (k : Int) =
      (m <<< 53 : Nat) * 2 ^ (-(53 : Nat) : Int) * ((10 ^ k : Nat) * 2 ^ (0 : Int)) := by
    rw [Nat.shiftLeft_eq, zpow_natCast, zpow_neg, zpow_natCast, zpow_zero]
    push_cast
    ring
  have hlong : 2 ^ 53 * 1 ≤ m <<< 53 * 10 ^ k := by
    refine Nat.mul_le_mul ?_ h₂
    rw [Nat.shiftLeft_eq] at h₁ ⊢
    exact Nat.le_mul_of_pos_left _ (Nat.pos_of_mul_pos_right h₁)
  have hlog : 53 ≤ (m <<< 53 * 10 ^ k).log2 := (Nat.le_log2 (by omega)).mpr hlong
  rw [hvalue]
  refine @rounded_mul .positive .positive _ _ _ _ _ _ ?_
  rw [target]
  omega

theorem rounded_div_ten_pow {k : Nat} {h₁ : 0 < m} {h₂ : 0 < 10 ^ k} :
    Rounded .positive (m * 10 ^ (-k : Int)) (UnpackedFloat.div Format.binary64
      (.finite .positive m 0 h₁) (.finite .positive (10 ^ k) 0 h₂)) := by
  have hvalue : (m : ℚ) * 10 ^ (-k : Int) = m * 2 ^ (0 : Int) / ((10 ^ k : Nat) * 2 ^ (0 : Int)) := by
    rw [zpow_neg, zpow_natCast, zpow_zero, mul_one, mul_one, Nat.cast_pow, Nat.cast_ofNat,
      div_eq_mul_inv]
  rw [hvalue]
  exact @rounded_div .positive .positive _ _ _ _ _ _

/-- A decimal number is rounded to the nearest number. -/
theorem rounded_ofScientific (m : Nat) (e : Int) :
    Rounded .positive (m * 10 ^ e) (UnpackedFloat.ofScientific Format.binary64 m e) := by
  unfold UnpackedFloat.ofScientific
  split
  · next hm =>
    rw [hm, Nat.cast_zero, zero_mul]
    exact rounded_zero (div_nonneg leastPositive_pos.le two_pos.le)
  · next hm =>
    split
    · next hlarge =>
      change e > 2 ^ 11 at hlarge
      exact rounded_infinity (le_mul_zpow_of_large hm (by omega))
    · split
      · next hsmall => exact rounded_zero (mul_zpow_le_of_small hsmall)
      · split
        · next hnonneg =>
          obtain ⟨k, rfl⟩ := Int.eq_ofNat_of_zero_le hnonneg
          exact rounded_mul_ten_pow
        · next hneg =>
          obtain ⟨k, rfl⟩ : ∃ k : Nat, e = -(k : Int) := ⟨(-e).toNat, by omega⟩
          simp only [neg_neg, Int.toNat_natCast]
          exact rounded_div_ten_pow

theorem ten_pow_eq (k : Nat) : (10 : ℚ) ^ k = (5 ^ k : Nat) * 2 ^ (k : Int) := by
  rw [zpow_natCast, Nat.cast_pow, ← mul_pow]
  norm_num

theorem five_pow_lt {k : Nat} (hk : k ≤ 22) : 5 ^ k < 2 ^ 53 :=
  Nat.lt_of_le_of_lt (Nat.pow_le_pow_right (by decide) hk) (by decide)

/-- A whole number and a power of ten that both have an exact representation need only one operation,
which rounds its result. -/
theorem exists_rounded_of_exact {k : Nat} (hm : m < 2 ^ 53) (hk : k ≤ 22) (small : Bool) :
    ∃ u, Rounded .positive (m * 10 ^ (if small then -k else k : Int)) u ∧
      (Float.ofScientific m small k).toModel = Float.Model.pack u := by
  have hpower := unpack_powerOfTen ⟨k, Nat.lt_succ_of_le hk⟩
  have hoperation : Float.ofScientific m small k =
      if small then m.toUInt64.toFloat / powerOfTen ⟨k, Nat.lt_succ_of_le hk⟩
      else m.toUInt64.toFloat * powerOfTen ⟨k, Nat.lt_succ_of_le hk⟩ :=
    dif_pos ⟨hm, hk⟩
  rw [hoperation]
  rcases m.eq_zero_or_pos with rfl | hpos
  · have hunpack : (0 : Nat).toUInt64.toFloat.toModel.unpack = .zero .positive := rfl
    have hzero : Rounded .positive ((0 : Nat) * 10 ^ (if small then -k else k : Int))
        (.zero .positive) := by
      rw [Nat.cast_zero, zero_mul]
      exact rounded_zero (div_nonneg leastPositive_pos.le two_pos.le)
    refine ⟨.zero .positive, hzero, ?_⟩
    cases small with
    | true =>
      exact congrArg₂ (fun u v => Float.Model.pack (UnpackedFloat.div Format.binary64 u v)) hunpack hpower
    | false =>
      exact congrArg₂ (fun u v => Float.Model.pack (UnpackedFloat.mul Format.binary64 u v)) hunpack hpower
  · have hunpack := unpack_toFloat hpos hm
    cases small with
    | true =>
      refine ⟨_, ?_, congrArg₂ (fun u v => Float.Model.pack (UnpackedFloat.div Format.binary64 u v))
        hunpack hpower⟩
      have hvalue : (m : ℚ) * 10 ^ (-k : Int) = m * 2 ^ (0 : Int) / ((5 ^ k : Nat) * 2 ^ (k : Int)) := by
        rw [← ten_pow_eq, zpow_neg, zpow_natCast, zpow_zero, mul_one, div_eq_mul_inv]
      rw [if_pos rfl, hvalue]
      exact rounded_div_full
    | false =>
      refine ⟨_, ?_, congrArg₂ (fun u v => Float.Model.pack (UnpackedFloat.mul Format.binary64 u v))
        hunpack hpower⟩
      have hvalue : (m : ℚ) * 10 ^ (k : Int) = m * 2 ^ (0 : Int) * ((5 ^ k : Nat) * 2 ^ (k : Int)) := by
        rw [← ten_pow_eq, zpow_natCast, zpow_zero, mul_one]
      rw [if_neg (by decide), hvalue]
      exact rounded_mul_full hm (five_pow_lt hk)

/-- A decimal number becomes the packed form of a number that is rounded to the nearest. -/
theorem exists_rounded_floatOfScientific (m : Nat) (small : Bool) (k : Nat) :
    ∃ u, Rounded .positive (m * 10 ^ (if small then -k else k : Int)) u ∧
      (Float.ofScientific m small k).toModel = Float.Model.pack u := by
  by_cases h : m < 2 ^ 53 ∧ k ≤ 22
  · exact exists_rounded_of_exact h.1 h.2 small
  · refine ⟨_, rounded_ofScientific _ _, ?_⟩
    rw [Float.ofScientific, dif_neg h, Int.negOfNat_eq]
    rfl

/-- A decimal number with a sign becomes the nearest number with this sign. -/
theorem isRounded_value (negative : Bool) (m : Nat) (shift : Int) :
    IsRounded negative (m * 10 ^ shift)
      (if negative then -Float.ofScientific m (shift < 0) shift.natAbs
        else Float.ofScientific m (shift < 0) shift.natAbs) := by
  obtain ⟨u, hu, hmodel⟩ := exists_rounded_floatOfScientific m (shift < 0) shift.natAbs
  have hshift : (if shift < 0 then -(shift.natAbs : Int) else shift.natAbs) = shift := by
    split <;> omega
  simp only [decide_eq_true_eq, hshift] at hu
  refine ⟨place u, hu.roundsTo, ?_⟩
  cases negative with
  | true =>
    have hneg := toNat_neg_pack hu.canonical hu.roundsTo.le_infinity
    rw [hu.sign, ← hmodel] at hneg
    exact hneg
  | false =>
    have hbits := toNat_pack hu.canonical
    rw [hu.sign] at hbits
    have hpack : (Float.ofScientific m (shift < 0) shift.natAbs).toBits.toNat =
        (UnpackedFloat.pack Format.binary64 u).toNat := congrArg (fun x => x.toBits.toNat) hmodel
    exact hpack.trans hbits

end Conversion

end TransportDeck.Number
