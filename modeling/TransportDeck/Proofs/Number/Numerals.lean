import Mathlib.Data.List.Induction
import Mathlib.Tactic.Ring
import TransportDeck.Number.Notation
import TransportDeck.Proofs.Text.Stops
import TransportDeck.Proofs.Text.Words

namespace TransportDeck.Number

structure Numeral (n : Nat) (cs : List Char) : Prop where
  ne_nil : cs ≠ []
  digits : ∀ c ∈ cs, c.isDigit = true
  value : ofDigits cs = n

theorem ofDigits_concat (cs : List Char) (d : Char) :
    ofDigits (cs ++ [d]) = 10 * ofDigits cs + (d.toNat - '0'.toNat) := by
  rw [ofDigits, List.foldl_append]
  rfl

theorem ofDigits_append (front back : List Char) :
    ofDigits (front ++ back) = ofDigits front * 10 ^ back.length + ofDigits back := by
  induction back using List.reverseRecOn with
  | nil => simp [ofDigits]
  | append_singleton back d ih =>
    rw [← List.append_assoc, ofDigits_concat, ofDigits_concat, ih, List.length_append,
      List.length_singleton]
    ring

theorem ofDigits_lt {cs : List Char} (h : ∀ c ∈ cs, c.isDigit = true) :
    ofDigits cs < 10 ^ cs.length := by
  induction cs using List.reverseRecOn with
  | nil => decide
  | append_singleton cs d ih =>
    have hfront := ih fun c hc => h c (List.mem_append_left _ hc)
    have hd : d.toNat ≤ '9'.toNat :=
      (Char.isDigit_iff_toNat.mp (h d (List.mem_append_right _ (List.mem_singleton_self d)))).2
    have hdigit : d.toNat - '0'.toNat ≤ 9 := Nat.sub_le_sub_right hd _
    rw [ofDigits_concat, List.length_append, List.length_singleton, Nat.pow_succ]
    omega

theorem ofDigits_toDigits (n : Nat) : ofDigits (Nat.toDigits 10 n) = n := by
  rw [ofDigits, ← Nat.ofDigitChars_eq_foldl, Nat.ofDigitChars_ten_toDigits]

theorem numeral_toDigits (n : Nat) : Numeral n (Nat.toDigits 10 n) where
  ne_nil := Nat.toDigits_ne_nil
  digits _ hc := Nat.isDigit_of_mem_toDigits (by decide) (by decide) hc
  value := ofDigits_toDigits n

namespace Numeral

variable {n limit : Nat} {cs rest : List Char}

theorem lt_pow_length (h : Numeral n cs) : n < 10 ^ cs.length :=
  h.value ▸ ofDigits_lt h.digits

/-- A numeral is continued by further digits. -/
theorem append {back : List Char} (h : Numeral n cs) (hback : ∀ c ∈ back, c.isDigit = true) :
    Numeral (n * 10 ^ back.length + ofDigits back) (cs ++ back) where
  ne_nil := List.append_ne_nil_of_left_ne_nil h.ne_nil back
  digits c hc := (List.mem_append.mp hc).elim (h.digits c) (hback c)
  value := by rw [ofDigits_append, h.value]

theorem isWord (h : Numeral n cs) : Text.IsWord cs :=
  ⟨h.ne_nil, fun c hc => Text.not_isBlank_of_isDigit (h.digits c hc)⟩

/-- A numeral starts with no other sign than a digit. -/
theorem ne_cons (h : Numeral n cs) {c : Char} (hc : c.isDigit = false) (rest : List Char) :
    cs ≠ c :: rest := by
  rintro rfl
  rw [h.digits c List.mem_cons_self] at hc
  cases hc

theorem lower_eq (h : Numeral n cs) : Text.lower cs = cs := by
  have hsame : cs.map Char.toLower = cs.map id :=
    List.map_congr_left fun c hc => Text.toLower_of_isDigit (h.digits c hc)
  rw [Text.lower, hsame, List.map_id]

theorem head?_append (h : Numeral n cs) (rest : List Char) :
    ∀ c ∈ (cs ++ rest).head?, c.isDigit = true := by
  obtain ⟨c, cs, rfl⟩ := List.exists_cons_of_ne_nil h.ne_nil
  rintro _ ⟨⟩
  exact h.digits c List.mem_cons_self

/-- A numeral has no sign. -/
theorem scanSign_append (h : Numeral n cs) (rest : List Char) :
    scanSign (cs ++ rest) = (false, cs ++ rest) := by
  have hhead := h.head?_append rest
  unfold scanSign
  split
  · next heq => rw [heq] at hhead; exact absurd (hhead '-' rfl) (by decide)
  · next heq => rw [heq] at hhead; exact absurd (hhead '+' rfl) (by decide)
  · rfl

theorem scanSign_eq (h : Numeral n cs) : scanSign cs = (false, cs) := by
  have hscan := h.scanSign_append []
  rwa [List.append_nil] at hscan

theorem scanDigits?_append (h : Numeral n cs) (hrest : ∀ c ∈ rest.head?, c.isDigit = false) :
    scanDigits? (cs ++ rest) = some (cs, rest) := by
  obtain ⟨htake, hdrop⟩ := takeWhile_dropWhile_append h.digits hrest
  have hempty : cs.isEmpty = false := List.isEmpty_eq_false_iff.mpr h.ne_nil
  simp [scanDigits?, htake, hdrop, hempty]

theorem scanDigits?_eq (h : Numeral n cs) : scanDigits? cs = some (cs, []) := by
  have hscan := @scanDigits?_append n cs [] h (by simp)
  rwa [List.append_nil] at hscan

theorem scanNat?_append (h : Numeral n cs) (hn : n ≤ limit)
    (hrest : ∀ c ∈ rest.head?, c.isDigit = false) :
    scanNat? limit (cs ++ rest) = some (n, rest) := by
  rw [scanNat?, h.scanDigits?_append hrest]
  simp only [h.value]
  exact if_pos hn

theorem scanNat?_eq (h : Numeral n cs) (hn : n ≤ limit) : scanNat? limit cs = some (n, []) := by
  have hscan := @scanNat?_append n limit cs [] h hn (by simp)
  rwa [List.append_nil] at hscan

/-- The numeral of an entity. -/
theorem readId?_eq (h : Numeral n cs) (hpos : 0 < n) (hn : n ≤ maxId) :
    readId? (String.ofList cs) = some n := by
  have hfits : fitsInt64 n = true := by
    simp only [maxId] at hn
    simp only [fitsInt64, Bool.and_eq_true, decide_eq_true_eq]
    omega
  have hint : readInt? (String.ofList cs) = some (n : Int) := by
    simp [readInt?, scanInt?, String.toList_ofList, h.scanSign_eq, h.scanDigits?_eq, h.value, hfits]
  have hcardinal : readCardinal? (String.ofList cs) = some n := by
    rw [readCardinal?, hint]
    exact if_pos ⟨Int.natCast_nonneg n, Int.ofNat_le.mpr hn⟩
  rw [readId?, hcardinal, Option.filter_some, if_pos (decide_eq_true hpos)]

end Numeral

theorem scanNat?_eq_none {limit : Nat} {cs : List Char} (h : ∀ c ∈ cs.head?, c.isDigit = false) :
    scanNat? limit cs = none := by
  cases cs with
  | nil => rfl
  | cons c rest => simp [scanNat?, scanDigits?, h c rfl]

/-- A number is scanned where a numeral stands in front, up to its last digit. -/
theorem scanNat?_eq_some_iff {n limit : Nat} {cs rest : List Char} :
    scanNat? limit cs = some (n, rest) ↔ ∃ digits, Numeral n digits ∧ n ≤ limit ∧
      cs = digits ++ rest ∧ ∀ c ∈ rest.head?, c.isDigit = false := by
  constructor
  · intro h
    have hsplit : cs.takeWhile Char.isDigit ++ cs.dropWhile Char.isDigit = cs :=
      List.takeWhile_append_dropWhile
    have hstop := head?_dropWhile_stops Char.isDigit cs
    unfold scanNat? scanDigits? at h
    dsimp only at h
    split at h
    · cases h
    · next digits after hdigits =>
      split at hdigits
      · cases hdigits
      · next hempty =>
        cases hdigits
        split at h
        · next hle =>
          cases h
          refine ⟨_, ⟨?_, fun c hc => List.mem_takeWhile_imp hc, rfl⟩, hle, hsplit.symm, hstop⟩
          simpa using hempty
        · cases h
  · rintro ⟨digits, hnumeral, hle, rfl, hstop⟩
    exact hnumeral.scanNat?_append hle hstop

end TransportDeck.Number
