import TransportDeck.Proofs.Number.Numerals

namespace TransportDeck.Number

section Texts

structure DigitRun where
  chars : List Char
  digits : ∀ c ∈ chars, c.isDigit = true

structure Digits extends DigitRun where
  ne_nil : chars ≠ []

inductive SignText
  | none
  | plus
  | minus
  deriving DecidableEq

namespace SignText

def text : SignText → List Char
  | none => []
  | plus => ['+']
  | minus => ['-']

def negative : SignText → Bool
  | minus => true
  | _ => false

end SignText

inductive MantissaText
  | whole (whole : Digits) (fraction : Option DigitRun)
  | point (fraction : Digits)

namespace MantissaText

def text : MantissaText → List Char
  | whole digits none => digits.chars
  | whole digits (some fraction) => digits.chars ++ '.' :: fraction.chars
  | point fraction => '.' :: fraction.chars

def wholeDigits : MantissaText → List Char
  | whole digits _ => digits.chars
  | point _ => []

def fractionDigits : MantissaText → List Char
  | whole _ none => []
  | whole _ (some fraction) => fraction.chars
  | point fraction => fraction.chars

end MantissaText

inductive ExponentText
  | lettered (letter : Char) (isLetter : isExponentLetter letter = true) (sign : SignText)
      (digits : Digits)
  | signed (negative : Bool) (digits : Digits)

namespace ExponentText

def sign : ExponentText → SignText
  | lettered _ _ sign _ => sign
  | signed negative _ => if negative then .minus else .plus

def digits : ExponentText → Digits
  | lettered _ _ _ digits => digits
  | signed _ digits => digits

def text : ExponentText → List Char
  | lettered letter _ sign digits => letter :: (sign.text ++ digits.chars)
  | signed negative digits => (if negative then '-' else '+') :: digits.chars

def value (e : ExponentText) : Int :=
  if e.sign.negative then -(ofDigits e.digits.chars : Int) else ofDigits e.digits.chars

def standard (e : ExponentText) : ExponentText :=
  lettered 'e' rfl e.sign e.digits

end ExponentText

structure FloatText where
  sign : SignText
  mantissa : MantissaText
  exponent : Option ExponentText

namespace FloatText

def exponentText (t : FloatText) : List Char :=
  (t.exponent.map ExponentText.text).getD []

def text (t : FloatText) : List Char :=
  t.sign.text ++ (t.mantissa.text ++ t.exponentText)

def exponentValue (t : FloatText) : Int :=
  (t.exponent.map ExponentText.value).getD 0

def mantissaValue (t : FloatText) : Mantissa :=
  ⟨t.sign.negative, t.mantissa.wholeDigits, t.mantissa.fractionDigits⟩

def value (t : FloatText) : Float :=
  t.mantissaValue.value t.exponentValue

/-- The decimal text that has the same mantissa and exponent in the spelling that all readers of numbers
know. -/
def standard (t : FloatText) : FloatText :=
  { t with exponent := t.exponent.map ExponentText.standard }

end FloatText

end Texts

section Characters

def IsFloatChar (c : Char) : Prop :=
  c.isDigit = true ∨ c = '.' ∨ isSign c = true ∨ isExponentLetter c = true

theorem SignText.isSign_of_mem {sign : SignText} {c : Char} (h : c ∈ sign.text) : isSign c = true := by
  cases sign with
  | none => cases h
  | plus => rw [List.mem_singleton.mp h]; rfl
  | minus => rw [List.mem_singleton.mp h]; rfl

theorem MantissaText.isFloatChar {mantissa : MantissaText} {c : Char} (h : c ∈ mantissa.text) :
    IsFloatChar c := by
  cases mantissa with
  | point fraction =>
    rcases List.mem_cons.mp h with rfl | h
    · exact .inr (.inl rfl)
    · exact .inl (fraction.digits c h)
  | whole digits fraction =>
    cases fraction with
    | none => exact .inl (digits.digits c h)
    | some fraction =>
      rcases List.mem_append.mp h with h | h
      · exact .inl (digits.digits c h)
      · rcases List.mem_cons.mp h with rfl | h
        · exact .inr (.inl rfl)
        · exact .inl (fraction.digits c h)

theorem ExponentText.isFloatChar {e : ExponentText} {c : Char} (h : c ∈ e.text) : IsFloatChar c := by
  cases e with
  | lettered letter isLetter sign digits =>
    rcases List.mem_cons.mp h with rfl | h
    · exact .inr (.inr (.inr isLetter))
    · rcases List.mem_append.mp h with h | h
      · exact .inr (.inr (.inl (SignText.isSign_of_mem h)))
      · exact .inl (digits.digits c h)
  | signed negative digits =>
    rcases List.mem_cons.mp h with rfl | h
    · cases negative <;> exact .inr (.inr (.inl rfl))
    · exact .inl (digits.digits c h)

theorem FloatText.isFloatChar {t : FloatText} {c : Char} (h : c ∈ t.text) : IsFloatChar c := by
  rcases List.mem_append.mp h with h | h
  · exact .inr (.inr (.inl (SignText.isSign_of_mem h)))
  · rcases List.mem_append.mp h with h | h
    · exact MantissaText.isFloatChar h
    · unfold exponentText at h
      cases hexponent : t.exponent with
      | none => simp [hexponent] at h
      | some e =>
        rw [hexponent] at h
        exact ExponentText.isFloatChar h

theorem not_isFloatChar {c : Char} (h : ¬ IsFloatChar c) :
    c.isDigit = false ∧ c ≠ '.' ∧ isSign c = false ∧ isExponentLetter c = false := by
  simpa only [IsFloatChar, not_or, Bool.not_eq_true] using h

end Characters

section Scans

variable {cs rest : List Char}

theorem SignText.scanSign_append (sign : SignText) (h : ∀ c ∈ rest.head?, isSign c = false) :
    scanSign (sign.text ++ rest) = (sign.negative, rest) := by
  cases sign with
  | plus => rfl
  | minus => rfl
  | none =>
    change scanSign rest = (false, rest)
    unfold scanSign
    split
    · exact absurd (h '-' rfl) (by decide)
    · exact absurd (h '+' rfl) (by decide)
    · rfl

theorem exists_signText (cs : List Char) : ∃ sign : SignText,
    cs = sign.text ++ (scanSign cs).2 ∧ (scanSign cs).1 = sign.negative := by
  unfold scanSign
  split
  · exact ⟨.minus, rfl, rfl⟩
  · exact ⟨.plus, rfl, rfl⟩
  · exact ⟨.none, rfl, rfl⟩

theorem not_isSign_of_isDigit {c : Char} (h : c.isDigit = true) : isSign c = false := by
  rw [isSign, Bool.or_eq_false_iff, beq_eq_false_iff_ne, beq_eq_false_iff_ne]
  constructor <;> rintro rfl <;> exact absurd h (by decide)

theorem Digits.numeral (digits : Digits) : Numeral (ofDigits digits.chars) digits.chars :=
  ⟨digits.ne_nil, digits.digits, rfl⟩

theorem exists_digits_of_scanDigits? {digits : List Char} (h : scanDigits? cs = some (digits, rest)) :
    ∃ run : Digits, run.chars = digits ∧ cs = digits ++ rest := by
  unfold scanDigits? at h
  dsimp only at h
  split at h
  · cases h
  · next hempty =>
    cases h
    refine ⟨⟨⟨cs.takeWhile Char.isDigit, fun c hc => List.mem_takeWhile_imp hc⟩, ?_⟩, rfl, ?_⟩
    · simpa using hempty
    · exact List.takeWhile_append_dropWhile.symm

theorem exists_digits_of_scanInt? {n : Int} (h : scanInt? cs = some (n, rest)) :
    ∃ (sign : SignText) (run : Digits), cs = sign.text ++ (run.chars ++ rest) := by
  obtain ⟨sign, hcs, -⟩ := exists_signText cs
  unfold scanInt? at h
  dsimp only at h
  split at h
  · cases h
  · next hdigits =>
    obtain ⟨run, rfl, hafter⟩ := exists_digits_of_scanDigits? hdigits
    obtain ⟨-, heq⟩ := Option.ite_none_right_eq_some.mp h
    cases heq
    exact ⟨sign, run, by rw [hcs, hafter]⟩

/-- A mantissa starts with a digit or a point. -/
theorem MantissaText.not_isSign_head (mantissa : MantissaText) (rest : List Char) :
    ∀ c ∈ (mantissa.text ++ rest).head?, isSign c = false := by
  cases mantissa with
  | whole digits fraction =>
    have htext : ∃ after, (whole digits fraction).text ++ rest = digits.chars ++ after := by
      cases fraction with
      | none => exact ⟨rest, rfl⟩
      | some fraction => exact ⟨'.' :: fraction.chars ++ rest, List.append_assoc _ _ _⟩
    obtain ⟨after, hafter⟩ := htext
    rw [hafter]
    exact fun c hc => not_isSign_of_isDigit (digits.numeral.head?_append after c hc)
  | point fraction =>
    rintro _ ⟨⟩
    rfl

/-- A mantissa is scanned where no digit and no point follow it. -/
theorem MantissaText.scanMantissa?_append (sign : SignText) (mantissa : MantissaText)
    (h : ∀ c ∈ rest.head?, c.isDigit = false ∧ c ≠ '.') :
    scanMantissa? (sign.text ++ (mantissa.text ++ rest)) =
      some (⟨sign.negative, mantissa.wholeDigits, mantissa.fractionDigits⟩, rest) := by
  have hstop : ∀ c ∈ rest.head?, c.isDigit = false := fun c hc => (h c hc).1
  have hpoint (after : List Char) : ∀ c ∈ ('.' :: after).head?, c.isDigit = false := by
    rintro _ ⟨⟩
    rfl
  rw [scanMantissa?, sign.scanSign_append (mantissa.not_isSign_head rest)]
  cases mantissa with
  | whole digits fraction =>
    have hne : digits.chars.isEmpty = false := List.isEmpty_eq_false_iff.mpr digits.ne_nil
    cases fraction with
    | none =>
      obtain ⟨htake, hdrop⟩ := takeWhile_dropWhile_append digits.digits hstop
      simp only [MantissaText.text, htake, hdrop]
      split
      · exact absurd rfl (h '.' rfl).2
      · rw [hne]
        rfl
    | some fraction =>
      obtain ⟨htake, hdrop⟩ := takeWhile_dropWhile_append digits.digits (hpoint (fraction.chars ++ rest))
      obtain ⟨htake', hdrop'⟩ := takeWhile_dropWhile_append fraction.digits hstop
      simp only [MantissaText.text, List.append_assoc, List.cons_append, htake, hdrop, htake', hdrop',
        hne, Bool.false_and]
      rfl
  | point fraction =>
    have hne : fraction.chars.isEmpty = false := List.isEmpty_eq_false_iff.mpr fraction.ne_nil
    obtain ⟨htake, hdrop⟩ := takeWhile_dropWhile_append fraction.digits hstop
    have hwhole : ('.' :: (fraction.chars ++ rest)).takeWhile Char.isDigit = [] := rfl
    have hafter : ('.' :: (fraction.chars ++ rest)).dropWhile Char.isDigit =
        '.' :: (fraction.chars ++ rest) := rfl
    simp only [MantissaText.text, List.cons_append, hwhole, hafter, htake, hdrop, hne, Bool.and_false]
    rfl

theorem exists_mantissaText_of_scanMantissa? {m : Mantissa} (h : scanMantissa? cs = some (m, rest)) :
    ∃ (sign : SignText) (mantissa : MantissaText), cs = sign.text ++ (mantissa.text ++ rest) ∧
      m = ⟨sign.negative, mantissa.wholeDigits, mantissa.fractionDigits⟩ := by
  obtain ⟨sign, hcs, hnegative⟩ := exists_signText cs
  let run (cs : List Char) : DigitRun :=
    ⟨cs.takeWhile Char.isDigit, fun c hc => List.mem_takeWhile_imp hc⟩
  have hsplit (cs : List Char) : cs = (run cs).chars ++ cs.dropWhile Char.isDigit :=
    List.takeWhile_append_dropWhile.symm
  unfold scanMantissa? at h
  generalize scanSign cs = scanned at *
  obtain ⟨negative, unsigned⟩ := scanned
  dsimp only at *
  subst hcs hnegative
  have hunsigned := hsplit unsigned
  split at h
  · next after hafter =>
    rw [hafter, hsplit after] at hunsigned
    split at h
    · cases h
    · next hempty =>
      cases h
      by_cases hwhole : unsigned.takeWhile Char.isDigit = []
      · have hfraction : after.takeWhile Char.isDigit ≠ [] := by simpa [hwhole] using hempty
        refine ⟨sign, .point ⟨run after, hfraction⟩, ?_, by rw [hwhole]; rfl⟩
        have hpoint : unsigned = '.' :: ((run after).chars ++ after.dropWhile Char.isDigit) := by
          rw [hunsigned]
          exact congrArg (· ++ _) hwhole
        exact congrArg _ hpoint
      · refine ⟨sign, .whole ⟨run unsigned, hwhole⟩ (some (run after)), ?_, rfl⟩
        have hpoint : unsigned = (run unsigned).chars ++ '.' :: (run after).chars ++
            after.dropWhile Char.isDigit := by rw [List.append_assoc]; exact hunsigned
        exact congrArg _ hpoint
  · split at h
    · cases h
    · next hempty =>
      cases h
      have hwhole : unsigned.takeWhile Char.isDigit ≠ [] := by simpa using hempty
      exact ⟨sign, .whole ⟨run unsigned, hwhole⟩ none, congrArg _ hunsigned, rfl⟩

theorem ExponentText.head?_append (e : ExponentText) (rest : List Char) :
    ∀ c ∈ (e.text ++ rest).head?, isExponentLetter c = true ∨ isSign c = true := by
  cases e with
  | lettered letter isLetter sign digits =>
    rintro _ ⟨⟩
    exact .inl isLetter
  | signed negative digits =>
    rintro _ ⟨⟩
    cases negative <;> exact .inr rfl

/-- An exponent is scanned where no digit follows it. -/
theorem ExponentText.scanExponent?_append (e : ExponentText) (h : ∀ c ∈ rest.head?, c.isDigit = false) :
    scanExponent? (e.text ++ rest) = some (e.value, rest) := by
  have hdigits (digits : Digits) : scanDigits? (digits.chars ++ rest) = some (digits.chars, rest) :=
    digits.numeral.scanDigits?_append h
  cases e with
  | lettered letter isLetter sign digits =>
    have hunsigned : ∀ c ∈ (digits.chars ++ rest).head?, isSign c = false :=
      fun c hc => not_isSign_of_isDigit (digits.numeral.head?_append rest c hc)
    simp only [text, scanExponent?, List.cons_append, List.append_assoc, isLetter,
      sign.scanSign_append hunsigned, hdigits, if_true, Bool.true_or, Option.map_some]
    rfl
  | signed negative digits =>
    cases negative with
    | true =>
      have hscan : scanSign ('-' :: (digits.chars ++ rest)) = (true, digits.chars ++ rest) := rfl
      simp [text, scanExponent?, isExponentLetter, isSign, hscan, hdigits, value, sign,
        SignText.negative, ExponentText.digits]
    | false =>
      have hscan : scanSign ('+' :: (digits.chars ++ rest)) = (false, digits.chars ++ rest) := rfl
      simp [text, scanExponent?, isExponentLetter, isSign, hscan, hdigits, value, sign,
        SignText.negative, ExponentText.digits]

theorem scanExponent?_eq_none (h : ∀ c ∈ rest.head?, ¬ IsFloatChar c) : scanExponent? rest = none := by
  cases rest with
  | nil => rfl
  | cons c rest =>
    obtain ⟨-, -, hsign, hletter⟩ := not_isFloatChar (h c rfl)
    simp [scanExponent?, hsign, hletter]

theorem exists_exponentText_of_scanExponent? {exponent : Int}
    (h : scanExponent? cs = some (exponent, rest)) :
    ∃ e : ExponentText, cs = e.text ++ rest ∧ exponent = e.value := by
  cases cs with
  | nil => cases h
  | cons c cs =>
    simp only [scanExponent?] at h
    cases hletter : isExponentLetter c with
    | true =>
      simp only [hletter, if_true, Bool.true_or] at h
      obtain ⟨⟨digits, after⟩, hdigits, ⟨⟩⟩ := Option.map_eq_some_iff.mp h
      obtain ⟨run, rfl, hafter⟩ := exists_digits_of_scanDigits? hdigits
      obtain ⟨sign, hcs, hnegative⟩ := exists_signText cs
      refine ⟨.lettered c hletter sign run, ?_, ?_⟩
      · rw [hcs, hafter]
        simp [ExponentText.text]
      · rw [hnegative]
        rfl
    | false =>
      cases hsign : isSign c with
      | false => simp [hletter, hsign] at h
      | true =>
        simp only [hletter, hsign, Bool.false_eq_true, if_false, Bool.or_true, if_true] at h
        obtain ⟨⟨digits, after⟩, hdigits, ⟨⟩⟩ := Option.map_eq_some_iff.mp h
        obtain ⟨run, rfl, hafter⟩ := exists_digits_of_scanDigits? hdigits
        simp only [isSign, Bool.or_eq_true, beq_iff_eq] at hsign
        rcases hsign with rfl | rfl
        · have hcs : cs = run.chars ++ after := hafter
          exact ⟨.signed false run, by rw [hcs]; rfl, rfl⟩
        · have hcs : cs = run.chars ++ after := hafter
          exact ⟨.signed true run, by rw [hcs]; rfl, rfl⟩

end Scans

section Tokens

variable {cs rest : List Char} {x : Float}

/-- A number is scanned where no character of a number follows it. -/
theorem FloatText.scanFloat?_append (t : FloatText) (h : ∀ c ∈ rest.head?, ¬ IsFloatChar c) :
    scanFloat? (t.text ++ rest) = some (t.value, rest) := by
  have hstop : ∀ c ∈ (t.exponentText ++ rest).head?, c.isDigit = false ∧ c ≠ '.' := by
    unfold exponentText
    cases t.exponent with
    | none =>
      intro c hc
      obtain ⟨hdigit, hpoint, -, -⟩ := not_isFloatChar (h c hc)
      exact ⟨hdigit, hpoint⟩
    | some e =>
      intro c hc
      have hfirst := e.head?_append rest c hc
      simp only [isExponentLetter, isSign, Bool.or_eq_true, beq_iff_eq] at hfirst
      rcases hfirst with (((rfl | rfl) | rfl) | rfl) | rfl | rfl <;> decide
  have hmantissa := MantissaText.scanMantissa?_append t.sign t.mantissa hstop
  rw [scanFloat?, text, List.append_assoc, List.append_assoc, hmantissa]
  obtain ⟨sign, mantissa, exponent⟩ := t
  cases exponent with
  | none =>
    have hexponent : scanExponent? ([] ++ rest) = none := scanExponent?_eq_none h
    simp only [exponentText, Option.map_none, Option.getD_none, hexponent]
    rfl
  | some e =>
    have hexponent := e.scanExponent?_append fun c hc => (not_isFloatChar (h c hc)).1
    simp only [exponentText, Option.map_some, Option.getD_some, hexponent]
    rfl

theorem FloatText.scanFloat?_text (t : FloatText) : scanFloat? t.text = some (t.value, []) := by
  have hscan := @FloatText.scanFloat?_append [] t (by simp)
  rwa [List.append_nil] at hscan

theorem exists_floatText_of_scanFloat? (h : scanFloat? cs = some (x, rest)) :
    ∃ t : FloatText, cs = t.text ++ rest ∧ x = t.value := by
  unfold scanFloat? at h
  split at h
  · cases h
  · next m after hmantissa =>
    obtain ⟨sign, mantissa, rfl, rfl⟩ := exists_mantissaText_of_scanMantissa? hmantissa
    split at h
    · next exponent _ hexponent =>
      cases h
      obtain ⟨e, rfl, rfl⟩ := exists_exponentText_of_scanExponent? hexponent
      refine ⟨⟨sign, mantissa, some e⟩, ?_, rfl⟩
      simp [FloatText.text, FloatText.exponentText]
    · cases h
      refine ⟨⟨sign, mantissa, none⟩, ?_, rfl⟩
      simp [FloatText.text, FloatText.exponentText]

/-- The tokens that are numbers are the texts of numbers. -/
theorem readFloat?_eq_some_iff {token : String} :
    readFloat? token = some x ↔ ∃ t : FloatText, t.text = token.toList ∧ x = t.value := by
  have hscan : readFloat? token = some x ↔ scanFloat? token.toList = some (x, []) := by
    rw [readFloat?]
    rcases scanFloat? token.toList with _ | ⟨y, _ | _⟩ <;> simp
  rw [hscan]
  constructor
  · intro h
    obtain ⟨t, htext, hx⟩ := exists_floatText_of_scanFloat? h
    rw [List.append_nil] at htext
    exact ⟨t, htext.symm, hx⟩
  · rintro ⟨t, htext, rfl⟩
    rw [← htext, t.scanFloat?_text]

theorem FloatText.readFloat?_text (t : FloatText) : readFloat? (String.ofList t.text) = some t.value :=
  readFloat?_eq_some_iff.mpr ⟨t, String.toList_ofList.symm, rfl⟩

/-- Every integer is the text of a number. -/
theorem isSome_readFloat?_of_readInt? {token : String} {n : Int} (h : readInt? token = some n) :
    (readFloat? token).isSome = true := by
  unfold readInt? at h
  split at h
  · next hscan =>
    obtain ⟨sign, run, htoken⟩ := exists_digits_of_scanInt? hscan
    have hread : readFloat? token = some (FloatText.value ⟨sign, .whole run none, none⟩) := by
      refine readFloat?_eq_some_iff.mpr ⟨⟨sign, .whole run none, none⟩, ?_, rfl⟩
      rw [htoken]
      rfl
    exact Option.isSome_of_eq_some hread
  · cases h

theorem FloatText.value_standard (t : FloatText) : t.standard.value = t.value := by
  obtain ⟨sign, mantissa, exponent⟩ := t
  cases exponent <;> rfl

end Tokens

end TransportDeck.Number
