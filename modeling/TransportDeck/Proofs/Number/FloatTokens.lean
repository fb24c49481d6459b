import TransportDeck.Proofs.Number.FloatTexts
import TransportDeck.Proofs.Number.Scientific
import TransportDeck.Proofs.Number.ShorthandTokens

namespace TransportDeck.Number

section Values

namespace FloatText

def decimal (t : FloatText) : ℚ :=
  ofDigits (t.mantissa.wholeDigits ++ t.mantissa.fractionDigits) *
    10 ^ (t.exponentValue - t.mantissa.fractionDigits.length)

theorem isRounded (t : FloatText) : IsRounded t.sign.negative t.decimal t.value :=
  isRounded_value _ _ _

end FloatText

/-- A reader that accepts every decimal text in the standard spelling and rounds its number to the
nearest. -/
def ReadsDecimals (parse : List Char → Option Float) : Prop :=
  ∀ t : FloatText, ∃ x, parse t.standard.text = some x ∧ IsRounded t.sign.negative t.decimal x

theorem ReadsDecimals.parse_standard {parse : List Char → Option Float} (h : ReadsDecimals parse)
    (t : FloatText) : parse t.standard.text = some t.value := by
  obtain ⟨x, hparse, hx⟩ := h t
  rw [hparse, hx.unique t.isRounded]

theorem readsDecimals_readFloat? : ReadsDecimals fun cs => readFloat? (String.ofList cs) := by
  intro t
  have hread : readFloat? (String.ofList t.standard.text) = some t.value := by
    rw [t.standard.readFloat?_text, t.value_standard]
  exact ⟨t.value, hread, t.isRounded⟩

end Values

section Ranges

/-- A range has a colon, which no number has. -/
theorem readRange?_eq_none {token : String} {x : Float} (h : readFloat? token = some x) :
    readRange? token = none := by
  obtain ⟨t, htext, -⟩ := readFloat?_eq_some_iff.mp h
  unfold readRange?
  split
  · next low rest hlow =>
    obtain ⟨sign, run, htoken⟩ := exists_digits_of_scanInt? hlow
    have hcolon : ':' ∈ t.text := by simp [htext, htoken]
    rcases FloatText.isFloatChar hcolon with h | h | h | h <;> exact absurd h (by decide)
  · rfl

end Ranges

/-- A token is read as a floating point number if and only if it has an optional sign, a mantissa and an
optional exponent. Its value is the one that every reader of decimal texts finds in the standard spelling,
so all spellings of an exponent agree. No number is a shorthand or a range. -/
theorem readFloat?_decimals {parse : List Char → Option Float} (hparse : ReadsDecimals parse)
    (token : String) :
    ((readFloat? token).isSome ↔ ∃ t : FloatText, t.text = token.toList) ∧
      (∀ t : FloatText, t.text = token.toList → readFloat? token = parse t.standard.text ∧
        readFloat? token = readFloat? (String.ofList t.standard.text)) ∧
      ((readFloat? token).isSome → Shorthand.read? token = none ∧ readRange? token = none) := by
  refine ⟨?_, fun t htext => ?_, fun hsome => ?_⟩
  · rw [Option.isSome_iff_exists]
    constructor
    · rintro ⟨x, hx⟩
      obtain ⟨t, htext, -⟩ := readFloat?_eq_some_iff.mp hx
      exact ⟨t, htext⟩
    · rintro ⟨t, htext⟩
      exact ⟨t.value, readFloat?_eq_some_iff.mpr ⟨t, htext, rfl⟩⟩
  · have hvalue : readFloat? token = some t.value := readFloat?_eq_some_iff.mpr ⟨t, htext, rfl⟩
    rw [hvalue, hparse.parse_standard, t.standard.readFloat?_text, t.value_standard]
    exact ⟨rfl, rfl⟩
  · obtain ⟨x, hx⟩ := Option.isSome_iff_exists.mp hsome
    refine ⟨?_, readRange?_eq_none hx⟩
    cases hread : Shorthand.read? token with
    | none => rfl
    | some s => rw [Shorthand.readFloat?_eq_none hread] at hx; cases hx

/-- An exponent without a letter: `1.0-3` is the number `1.0e-3`. -/
theorem readFloat?_decimals_of_signed :
    ReadsDecimals (fun cs => readFloat? (String.ofList cs)) ∧ (readFloat? "1.0-3").isSome ∧
      readFloat? "1.0-3" = readFloat? "1.0e-3" ∧ Shorthand.read? "1.0-3" = none ∧
      readRange? "1.0-3" = none := by
  let t : FloatText :=
    { sign := .none
      mantissa := .whole ⟨⟨['1'], List.forall_mem_singleton.mpr rfl⟩, List.cons_ne_nil _ _⟩
        (some ⟨['0'], List.forall_mem_singleton.mpr rfl⟩)
      exponent := some
        (.signed true ⟨⟨['3'], List.forall_mem_singleton.mpr rfl⟩, List.cons_ne_nil _ _⟩) }
  obtain ⟨haccepted, hvalue, hother⟩ := readFloat?_decimals readsDecimals_readFloat? "1.0-3"
  have hsome := haccepted.mpr ⟨t, rfl⟩
  exact ⟨readsDecimals_readFloat?, hsome, (hvalue t rfl).1, hother hsome⟩

end TransportDeck.Number
