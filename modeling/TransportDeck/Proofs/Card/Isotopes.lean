import TransportDeck.Card.Material
import TransportDeck.Proofs.Number.Numerals
import TransportDeck.Proofs.Text.LetterCase

namespace TransportDeck

open Number

inductive LibraryText : List Char → Option String → Prop
  | absent : LibraryText [] none
  | named {d e l : Char} (hd : d.isDigit = true) (he : e.isDigit = true) (hl : l.isAlpha = true) :
      LibraryText ['.', d, e, l] (some (String.ofList [d, e, l.toLower]))

/-- The digits of an isotope: zeros may stand in front, but there are no more than six. -/
structure Zaid.Digits (zaid : Zaid) (digits : List Char) : Prop where
  numeral : Numeral (zaid.z * 1000 + zaid.a) digits
  short : digits.length ≤ 6
  mass : zaid.a < 1000

def Zaid.WrittenAs (zaid : Zaid) (token : String) : Prop :=
  ∃ digits suffix, token.toList = digits ++ suffix ∧ zaid.Digits digits ∧
    LibraryText suffix zaid.library

namespace LibraryText

variable {cs : List Char} {library : Option String}

/-- The digits end where the library starts. -/
theorem stops (h : LibraryText cs library) : ∀ c ∈ cs.head?, c.isDigit = false := by
  cases h with
  | absent => exact fun c hc => absurd hc (Option.not_mem_none c)
  | named =>
    rintro _ ⟨⟩
    decide

/-- A library is named in lower case, and by that name it is found again. -/
theorem printed {name : String} (h : LibraryText cs (some name)) :
    LibraryText ('.' :: name.toList) (some name) := by
  cases h with
  | @named d e l hd he hl =>
    have hlower : l.toLower.isAlpha = true := by rw [Text.isAlpha_toLower, hl]
    have hnamed := named hd he hlower
    rw [Text.toLower_toLower] at hnamed
    rwa [String.toList_ofList]

end LibraryText

namespace Card

theorem readLibrary?_eq_some_iff {cs : List Char} {library : Option String} :
    readLibrary? cs = some library ↔ LibraryText cs library := by
  have hlower {d e l : Char} (hd : d.isDigit = true) (he : e.isDigit = true) :
      Text.lower [d, e, l] = [d, e, l.toLower] := by
    simp [Text.lower, Text.toLower_of_isDigit hd, Text.toLower_of_isDigit he]
  constructor
  · intro h
    unfold readLibrary? at h
    split at h
    · cases h
      exact .absent
    · split at h
      · next hname =>
        simp only [Bool.and_eq_true] at hname
        obtain ⟨⟨hd, he⟩, hl⟩ := hname
        rw [hlower hd he] at h
        cases h
        exact .named hd he hl
      · cases h
    · cases h
  · intro h
    cases h with
    | absent => rfl
    | named hd he hl => simp [readLibrary?, hd, he, hl, hlower hd he]

variable {token : String} {zaid : Zaid}

theorem readZaid?_of_written (h : zaid.WrittenAs token) : readZaid? token = some zaid := by
  obtain ⟨digits, suffix, htoken, hdigits, hlibrary⟩ := h
  obtain ⟨htake, hdrop⟩ := takeWhile_dropWhile_append hdigits.numeral.digits hlibrary.stops
  have hne : digits.isEmpty = false := List.isEmpty_eq_false_iff.mpr hdigits.numeral.ne_nil
  have hmass := hdigits.mass
  -- the mass number fills three places at most, so it does not run over into the atomic number
  have hz : (zaid.z * 1000 + zaid.a) / 1000 = zaid.z := by omega
  have ha : (zaid.z * 1000 + zaid.a) % 1000 = zaid.a := by omega
  have hfits : ¬ 6 < digits.length := Nat.not_lt.mpr hdigits.short
  simp only [readZaid?, htoken, htake, hdrop, hne, hfits, readLibrary?_eq_some_iff.mpr hlibrary,
    hdigits.numeral.value, hz, ha]
  rfl

theorem written_of_readZaid? (h : readZaid? token = some zaid) : zaid.WrittenAs token := by
  unfold readZaid? at h
  dsimp only at h
  split at h
  · cases h
  · next hdigits =>
    simp only [Bool.or_eq_true, List.isEmpty_iff, decide_eq_true_eq, not_or, Nat.not_lt] at hdigits
    obtain ⟨hne, hshort⟩ := hdigits
    obtain ⟨library, hlibrary, rfl⟩ := Option.map_eq_some_iff.mp h
    refine ⟨_, _, List.takeWhile_append_dropWhile.symm, ⟨⟨hne, ?_, ?_⟩, hshort, ?_⟩,
      readLibrary?_eq_some_iff.mp hlibrary⟩
    · exact fun c hc => List.mem_takeWhile_imp hc
    · change ofDigits _ = ofDigits _ / 1000 * 1000 + ofDigits _ % 1000
      omega
    · exact Nat.mod_lt _ (by decide)

/-- A token is read as an isotope if it writes one, and as that one. -/
theorem readZaid?_eq_some_iff : readZaid? token = some zaid ↔ zaid.WrittenAs token :=
  ⟨written_of_readZaid?, readZaid?_of_written⟩

end Card

namespace Zaid

variable {zaid : Zaid} {token : String}

/-- Six digits hold no atomic number beyond 999. -/
theorem Digits.z_lt {digits : List Char} (h : zaid.Digits digits) : zaid.z < 1000 := by
  have hvalue := h.numeral.lt_pow_length
  have hpow : 10 ^ digits.length ≤ 10 ^ 6 := Nat.pow_le_pow_right (by decide) h.short
  omega

def massDigits (zaid : Zaid) : List Char :=
  List.replicate (3 - (Nat.toDigits 10 zaid.a).length) '0' ++ Nat.toDigits 10 zaid.a

theorem ofDigits_massDigits (zaid : Zaid) : ofDigits zaid.massDigits = zaid.a := by
  have hzeros (k : Nat) : ofDigits (List.replicate k '0') = 0 := by
    induction k with
    | zero => rfl
    | succ k ih => rw [List.replicate_succ', ofDigits_concat, ih]; rfl
  rw [massDigits, ofDigits_append, hzeros, Nat.zero_mul, Nat.zero_add, ofDigits_toDigits]

theorem length_massDigits (h : zaid.a < 1000) : zaid.massDigits.length = 3 := by
  have hmass : (Nat.toDigits 10 zaid.a).length ≤ 3 :=
    (Nat.length_toDigits_le_iff (by decide) (by decide)).mpr h
  rw [massDigits, List.length_append, List.length_replicate]
  omega

theorem isDigit_of_mem_massDigits {c : Char} (hc : c ∈ zaid.massDigits) : c.isDigit = true := by
  rcases List.mem_append.mp hc with hzero | hdigit
  · rw [List.eq_of_mem_replicate hzero]
    decide
  · exact (numeral_toDigits zaid.a).digits c hdigit

theorem digits_printed (hz : zaid.z < 1000) (ha : zaid.a < 1000) :
    zaid.Digits (Nat.toDigits 10 zaid.z ++ zaid.massDigits) where
  numeral := by
    have hmass : ∀ c ∈ zaid.massDigits, c.isDigit = true := fun c hc => isDigit_of_mem_massDigits hc
    have hnumeral := (numeral_toDigits zaid.z).append hmass
    rwa [length_massDigits ha, ofDigits_massDigits] at hnumeral
  short := by
    have hlength : (Nat.toDigits 10 zaid.z).length ≤ 3 :=
      (Nat.length_toDigits_le_iff (by decide) (by decide)).mpr hz
    rw [List.length_append, length_massDigits ha]
    omega
  mass := ha

/-- What an isotope is printed with writes that isotope, however it was written before. -/
theorem WrittenAs.printed (h : zaid.WrittenAs token) : zaid.WrittenAs zaid.describe := by
  obtain ⟨digits, suffix, _, hdigits, hlibrary⟩ := h
  have hprinted := digits_printed hdigits.z_lt hdigits.mass
  unfold WrittenAs
  cases hname : zaid.library with
  | none =>
    refine ⟨_, [], ?_, hprinted, .absent⟩
    simp [describe, hname, massDigits]
  | some name =>
    rw [hname] at hlibrary
    refine ⟨_, '.' :: name.toList, ?_, hprinted, hlibrary.printed⟩
    simp [describe, hname, massDigits, String.toList_append]

theorem readZaid?_describe (h : Card.readZaid? token = some zaid) :
    Card.readZaid? zaid.describe = some zaid :=
  Card.readZaid?_eq_some_iff.mpr (Card.readZaid?_eq_some_iff.mp h).printed

end Zaid

end TransportDeck
