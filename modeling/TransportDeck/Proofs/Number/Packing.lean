import TransportDeck.Proofs.Number.Nearest

namespace TransportDeck.Number

open Float.Model Float.Model.UnpackedFloat

def signBits : Sign → Nat
  | .negative => 2 ^ 63
  | .positive => 0

def signOf : UnpackedFloat → Sign
  | .infinity s | .zero s | .finite s _ _ _ => s
  | .notANumber => .positive

def place : UnpackedFloat → Nat
  | .zero _ => 0
  | .finite _ m e _ => min ((e + 1074).toNat * 2 ^ 52 + m) infinityPlace
  | .infinity _ => infinityPlace
  | .notANumber => infinityPlace + 1

def Canonical : UnpackedFloat → Prop
  | .finite _ m e _ => m < 2 ^ 53 ∧ -1074 ≤ e ∧ (2 ^ 52 ≤ m ∨ e = -1074)
  | .notANumber => False
  | _ => True

section Components

theorem toNat_packComponents (s : Sign) (exponent : BitVec 11) (mantissa : BitVec 52) :
    (packComponents Format.binary64 s exponent mantissa).toNat =
      signBits s + (exponent.toNat * 2 ^ 52 + mantissa.toNat) := by
  have hexponent : exponent.toNat < 2 ^ 11 := exponent.isLt
  have hmantissa : mantissa.toNat < 2 ^ 52 := mantissa.isLt
  change (s.toBitVec ++ exponent ++ mantissa).toNat = _
  rw [BitVec.toNat_append, ← Nat.shiftLeft_add_eq_or_of_lt hmantissa, BitVec.toNat_append,
    ← Nat.shiftLeft_add_eq_or_of_lt hexponent, Nat.shiftLeft_eq, Nat.shiftLeft_eq]
  cases s with
  | negative =>
    change (1 * 2 ^ 11 + exponent.toNat) * 2 ^ 52 + mantissa.toNat = 2 ^ 63 + _
    omega
  | positive =>
    change (0 * 2 ^ 11 + exponent.toNat) * 2 ^ 52 + mantissa.toNat = 0 + _
    omega

/-- An exponent within bounds leaves room for infinity. -/
theorem toNat_ofNat_exponent {k : Nat} (h : k + 1 < 2 ^ 11) :
    (BitVec.ofNat 11 k).toNat = k ∧ BitVec.ofNat 11 k ≠ -1#11 := by
  have hnat : (BitVec.ofNat 11 k).toNat = k := by
    rw [BitVec.toNat_ofNat]
    omega
  refine ⟨hnat, fun heq => ?_⟩
  have hones : (BitVec.ofNat 11 k).toNat = 2047 := congrArg BitVec.toNat heq
  omega

end Components

section Finite

variable {s : Sign} {m : Nat} {e : Int} {hm : 0 < m}

theorem log2_eq_of_full (hlow : 2 ^ 52 ≤ m) (hhigh : m < 2 ^ 53) : m.log2 = 52 :=
  (Nat.log2_eq_iff (by omega)).mpr ⟨hlow, hhigh⟩

theorem biased_toNat (e : Int) : (e + (Format.binary64.exponentBias : Int) +
    (Format.binary64.mantissaBitsWithoutImplicit : Int)).toNat = (e + 1075).toNat := by
  change (e + 1023 + 52).toNat = _
  omega

/-- The packed form of a number that is not too large. -/
theorem pack_finite (h : Canonical (.finite s m e hm)) (he : e ≤ 971) :
    UnpackedFloat.pack Format.binary64 (.finite s m e hm) =
      packComponents Format.binary64 s
        (if 2 ^ 52 ≤ m then BitVec.ofNat 11 (e + 1075).toNat else 0#11) (BitVec.ofNat 52 m) := by
  obtain ⟨hhigh, hlow, hfull⟩ := h
  have hfits : ¬ 2 ^ 11 ≤ (e + 1075).toNat + 1 := by omega
  rw [UnpackedFloat.pack]
  simp only [biased_toNat e]
  rw [if_neg hfits]
  by_cases hlarge : 2 ^ 52 ≤ m
  · have hlog : m.log2 + 1 = Format.binary64.mantissaBits := by
      rw [log2_eq_of_full hlarge hhigh]
      rfl
    rw [if_pos hlog, if_pos hlarge]
  · have hlog : m.log2 < 52 := (Nat.log2_lt (by omega)).mpr (by omega)
    have hbits : Format.binary64.mantissaBits = 53 := rfl
    rw [if_neg (by omega), if_neg hlarge]

theorem pack_overflow (he : 971 < e) :
    UnpackedFloat.pack Format.binary64 (.finite s m e hm) = packedInfinity Format.binary64 s := by
  rw [UnpackedFloat.pack]
  simp only [biased_toNat e]
  exact if_pos (by omega)

/-- A number in canonical form is infinite if and only if its exponent is too large. -/
theorem place_finite (h : Canonical (.finite s m e hm)) :
    (e ≤ 971 ∧ place (.finite s m e hm) = (e + 1074).toNat * 2 ^ 52 + m ∧
        place (.finite s m e hm) < infinityPlace) ∨
      971 < e ∧ place (.finite s m e hm) = infinityPlace := by
  obtain ⟨hhigh, hlow, hfull⟩ := h
  simp only [place, infinityPlace]
  omega

end Finite

section Packed

variable {u : UnpackedFloat}

theorem toNat_packedInfinity (s : Sign) :
    (packedInfinity Format.binary64 s).toNat = signBits s + infinityPlace :=
  toNat_packComponents s (-1#11) 0#52

/-- A number is packed into its sign and its place. -/
theorem toNat_pack (h : Canonical u) :
    (UnpackedFloat.pack Format.binary64 u).toNat = signBits (signOf u) + place u := by
  cases u with
  | infinity s => exact toNat_packedInfinity s
  | notANumber => exact h.elim
  | zero s => exact toNat_packComponents s 0#11 0#52
  | finite s m e hm =>
    rcases place_finite h with ⟨he, hplace, -⟩ | ⟨he, hplace⟩
    · obtain ⟨hhigh, hlow, hfull⟩ := h
      rw [pack_finite ⟨hhigh, hlow, hfull⟩ he, toNat_packComponents, hplace]
      split
      · next hlarge =>
        rw [(toNat_ofNat_exponent (by omega)).1, BitVec.toNat_ofNat]
        simp only [signOf]
        omega
      · simp only [BitVec.toNat_ofNat, signOf]
        omega
    · rw [pack_overflow he, toNat_packedInfinity, hplace]
      rfl

theorem unpack_packComponents_full {s : Sign} {m : Nat} {e : Int} {hm : 0 < m}
    (h : Canonical (.finite s m e hm)) (he : e ≤ 971) (hlarge : 2 ^ 52 ≤ m) :
    UnpackedFloat.unpack Format.binary64
      (packComponents Format.binary64 s (BitVec.ofNat 11 (e + 1075).toNat) (BitVec.ofNat 52 m)) =
        .finite s m e hm := by
  obtain ⟨hhigh, hlow, hfull⟩ := h
  obtain ⟨hnat, hones⟩ := @toNat_ofNat_exponent (e + 1075).toNat (by omega)
  have hzero : BitVec.ofNat 11 (e + 1075).toNat ≠ 0#11 := by
    intro heq
    rw [heq] at hnat
    change 0 = (e + 1075).toNat at hnat
    omega
  have hmantissa : (1#1 ++ BitVec.ofNat 52 m).toNat = m := by
    have hlt : (BitVec.ofNat 52 m).toNat < 2 ^ 52 := (BitVec.ofNat 52 m).isLt
    rw [BitVec.toNat_append, ← Nat.shiftLeft_add_eq_or_of_lt hlt, Nat.shiftLeft_eq, BitVec.toNat_ofNat]
    change 1 * 2 ^ 52 + m % 2 ^ 52 = m
    omega
  have hbias : (Format.binary64.exponentBias : Int) +
      (Format.binary64.mantissaBitsWithoutImplicit : Int) = 1075 := rfl
  have hexponent : (((e + 1075).toNat : Int) - 1075) = e := by omega
  rw [UnpackedFloat.unpack]
  simp only [unpackMantissa_packComponents, unpackExponent_packComponents, unpackSign_packComponents,
    Sign.ofBitVec_toBitVec, if_neg hones, if_neg hzero, hmantissa, hnat, hbias, hexponent]

theorem unpack_packComponents_small {s : Sign} {m : Nat} {hm : 0 < m} (hsmall : m < 2 ^ 52) :
    UnpackedFloat.unpack Format.binary64
      (packComponents Format.binary64 s 0#11 (BitVec.ofNat 52 m)) = .finite s m (-1074) hm := by
  have hmantissa : (BitVec.ofNat 52 m).toNat = m := by
    rw [BitVec.toNat_ofNat]
    exact Nat.mod_eq_of_lt hsmall
  have hzero : BitVec.ofNat 52 m ≠ 0#52 := by
    intro heq
    rw [heq] at hmantissa
    change 0 = m at hmantissa
    omega
  have hones : 0#11 ≠ -1#11 := by decide
  rw [UnpackedFloat.unpack]
  simp only [unpackMantissa_packComponents, unpackExponent_packComponents, unpackSign_packComponents,
    Sign.ofBitVec_toBitVec, if_neg hones, if_true, dif_neg hzero, hmantissa]
  rfl

/-- A packed number is unpacked again, unless it is too large. -/
theorem unpack_pack (h : Canonical u) (hfinite : place u < infinityPlace) :
    (Float.Model.pack u).unpack = u := by
  cases u with
  | infinity s => exact absurd rfl (Nat.ne_of_lt hfinite)
  | notANumber => exact h.elim
  | zero s => cases s <;> rfl
  | finite s m e hm =>
    have hplaces := place_finite h
    have he : e ≤ 971 := by omega
    change UnpackedFloat.unpack Format.binary64 (UnpackedFloat.pack Format.binary64 _) = _
    rw [pack_finite h he]
    by_cases hlarge : 2 ^ 52 ≤ m
    · rw [if_pos hlarge]
      exact unpack_packComponents_full h he hlarge
    · obtain rfl : e = -1074 := h.2.2.resolve_left hlarge
      rw [if_neg hlarge]
      exact unpack_packComponents_small (by omega)

theorem canonical_neg (h : Canonical u) :
    Canonical u.neg ∧ signOf u.neg = -signOf u ∧ place u.neg = place u := by
  cases u with
  | notANumber => exact h.elim
  | infinity s => exact ⟨trivial, rfl, rfl⟩
  | zero s => exact ⟨trivial, rfl, rfl⟩
  | finite s m e hm => exact ⟨h, rfl, rfl⟩

/-- Two numbers in canonical form with the same sign and place have the same bits. -/
theorem pack_congr {v : UnpackedFloat} (hu : Canonical u) (hv : Canonical v) (hsign : signOf u = signOf v)
    (hplace : place u = place v) : Float.Model.pack u = Float.Model.pack v := by
  have hbits : UnpackedFloat.pack Format.binary64 u = UnpackedFloat.pack Format.binary64 v := by
    apply BitVec.eq_of_toNat_eq
    rw [toNat_pack hu, toNat_pack hv, hsign, hplace]
  simp only [Float.Model.pack, hbits]

/-- The negation of a packed number has its place and the opposite sign. -/
theorem toNat_neg_pack (h : Canonical u) (hplace : place u ≤ infinityPlace) :
    (-Float.Model.pack u).toBits.toNat = signBits (-signOf u) + place u := by
  rcases hplace.lt_or_eq with hfinite | hinfinite
  · obtain ⟨hneg, hsign, hplace⟩ := canonical_neg h
    have hunpack : -Float.Model.pack u = Float.Model.pack u.neg :=
      congrArg (fun v : UnpackedFloat => Float.Model.pack v.neg) (unpack_pack h hfinite)
    rw [hunpack, ← hsign, ← hplace]
    exact toNat_pack hneg
  · have hpack : Float.Model.pack u = Float.Model.pack (.infinity (signOf u)) :=
      pack_congr h trivial rfl hinfinite
    rw [hpack, hinfinite]
    cases signOf u with
    | negative => rfl
    | positive => rfl

end Packed

end TransportDeck.Number
