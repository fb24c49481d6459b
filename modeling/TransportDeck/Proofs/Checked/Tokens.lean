import TransportDeck.Proofs.Checked.Steps

namespace TransportDeck.Checked

def tokens (delimiters text : List Char) : Option (List String) := do
  let _room ← add? (Text.bytes text) 8
  return Text.tokens delimiters text

def splitTokens (delimiters : List Char) (ts : List String) : Option (List String) := do
  let _room ← add? (Text.bytes (Text.joined " " ts).toList) 8
  return Text.splitTokens delimiters ts

structure TokensFit (ts : List String) : Prop where
  ne_empty : ∀ t ∈ ts, t ≠ ""
  bytes_lt : Text.tokenBytes ts < lengthLimit

section Tokens

variable {delimiters text : List Char} {ts : List String}

theorem tokens_eq (h : Text.bytes text < lengthLimit) :
    tokens delimiters text = some (Text.tokens delimiters text) := by
  have hroom : add? (Text.bytes text) 8 = some (Text.bytes text + 8) :=
    add?_of_lt (by omega) (by decide)
  rw [tokens, hroom]
  rfl

theorem tokensFit_tokens (delimiters : List Char) (h : Text.bytes text < lengthLimit) :
    TokensFit (Text.tokens delimiters text) where
  ne_empty _ := Text.ne_empty_of_mem_tokens
  bytes_lt := Nat.lt_of_le_of_lt (Text.tokenBytes_tokens_le delimiters text) h

theorem TokensFit.length_lt (h : TokensFit ts) : ts.length < lengthLimit :=
  Nat.lt_of_le_of_lt (Text.length_le_tokenBytes h.ne_empty) h.bytes_lt

/-- After three tokens at least, the rest can be joined with room to spare. -/
theorem splitTokens_drop {n : Nat} (h : TokensFit ts) (hn : 3 ≤ n) (hle : n ≤ ts.length) :
    splitTokens delimiters (ts.drop n) = some (Text.splitTokens delimiters (ts.drop n)) := by
  have hroom : add? (Text.bytes (Text.joined " " (ts.drop n)).toList) 8 =
      some (Text.bytes (Text.joined " " (ts.drop n)).toList + 8) := by
    apply add?_eq
    have hbytes := h.bytes_lt
    have hsplit := Text.tokenBytes_append (ts.take n) (ts.drop n)
    have hfirst : (ts.take n).length ≤ Text.tokenBytes (ts.take n) :=
      Text.length_le_tokenBytes fun t ht => h.ne_empty t (List.mem_of_mem_take ht)
    have hrest : (ts.drop n).length ≤ Text.tokenBytes (ts.drop n) :=
      Text.length_le_tokenBytes fun t ht => h.ne_empty t (List.mem_of_mem_drop ht)
    rw [List.take_append_drop] at hsplit
    rw [List.length_take_of_le hle] at hfirst
    have hjoined : Text.bytes (Text.joined " " (ts.drop n)).toList ≤
        2 * Text.tokenBytes (ts.drop n) - 1 := by
      by_cases hne : ts.drop n = []
      · rw [hne]
        exact Nat.zero_le _
      · have hpieces := Text.bytes_joined hne
        rw [Text.pieceBytes_tokens] at hpieces
        omega
    simp only [lengthLimit, maxWord] at *
    omega
  rw [splitTokens, hroom]
  rfl

/-- Tokens that blanks keep apart can be joined again. -/
theorem splitTokens_tokens (h : Text.bytes text < lengthLimit) :
    splitTokens delimiters (Text.tokens [] text) =
      some (Text.splitTokens delimiters (Text.tokens [] text)) := by
  have hroom : add? (Text.bytes (Text.joined " " (Text.tokens [] text)).toList) 8 =
      some (Text.bytes (Text.joined " " (Text.tokens [] text)).toList + 8) := by
    have hjoined := Text.bytes_joined_tokens_le text
    exact add?_of_lt (by omega) (by decide)
  rw [splitTokens, hroom]
  rfl

end Tokens

end TransportDeck.Checked
