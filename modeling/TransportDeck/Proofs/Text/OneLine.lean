import TransportDeck.Number.Decimal
import TransportDeck.Proofs.Text.LetterCase

namespace TransportDeck

def OneLine (s : String) : Prop := '\n' ∉ s.toList

theorem oneLine_append {s t : String} : OneLine (s ++ t) ↔ OneLine s ∧ OneLine t := by
  simp [OneLine]

theorem oneLine_ofList {cs : List Char} : OneLine (String.ofList cs) ↔ '\n' ∉ cs := by
  simp [OneLine]

/-- Texts joined by a separator hold nothing but the texts and the separator. -/
theorem not_mem_intercalate {separator : List Char} {parts : List (List Char)} {c : Char}
    (hseparator : c ∉ separator) (hparts : ∀ part ∈ parts, c ∉ part) :
    c ∉ separator.intercalate parts := by
  induction parts with
  | nil => simp
  | cons part rest ih =>
    have hpart : c ∉ part := hparts part List.mem_cons_self
    have hrest : c ∉ separator.intercalate rest :=
      ih fun other hother => hparts other (List.mem_cons_of_mem _ hother)
    cases rest with
    | nil => simpa using hpart
    | cons next rest =>
      rw [List.intercalate_cons_cons]
      simp [hpart, hseparator, hrest]

theorem oneLine_intercalate {separator : String} {texts : List String} (hseparator : OneLine separator)
    (htexts : ∀ s ∈ texts, OneLine s) : OneLine (separator.intercalate texts) := by
  rw [OneLine, String.toList_intercalate]
  apply not_mem_intercalate hseparator
  intro part hpart
  obtain ⟨s, hs, rfl⟩ := List.mem_map.mp hpart
  exact htexts s hs

section Numbers

@[simp] theorem newline_not_mem_digits (n : Nat) : '\n' ∉ Nat.toDigits 10 n :=
  fun h => absurd (Nat.isDigit_of_mem_toDigits (by decide) (by decide) h) (by decide)

@[simp] theorem newline_not_mem_repr (n : Int) : '\n' ∉ n.repr.toList := by
  cases n with
  | ofNat m => simp [Int.repr]
  | negSucc m => simp [Int.repr]

namespace Number

theorem newline_not_mem_positional {pointZero : Bool} {digits : List Char} (lead : Int)
    (h : '\n' ∉ digits) : '\n' ∉ positional pointZero digits lead := by
  have htake (n : Nat) : '\n' ∉ digits.take n := fun hmem => h (List.mem_of_mem_take hmem)
  have hdrop (n : Nat) : '\n' ∉ digits.drop n := fun hmem => h (List.mem_of_mem_drop hmem)
  unfold positional
  split
  · simp [h]
  · dsimp only
    split
    · cases pointZero <;> simp [h]
    · simp [htake, hdrop]

theorem newline_not_mem_pointed {digits : List Char} (h : '\n' ∉ digits) :
    '\n' ∉ pointed digits := by
  unfold pointed
  split
  · simpa using h
  · exact h

theorem newline_not_mem_exponentText (pad : Nat) (e : Int) : '\n' ∉ exponentText pad e := by
  have hdigits := newline_not_mem_digits e.natAbs
  unfold exponentText decimalDigits
  split <;> simp [hdigits]

theorem oneLine_signed {negative : Bool} {magnitude : List Char} (h : '\n' ∉ magnitude) :
    OneLine (signed negative magnitude) := by
  rw [signed, oneLine_ofList]
  split <;> simp [h]

theorem newline_not_mem_magnitude (style : DecimalStyle) (b : Binary) :
    '\n' ∉ style.magnitude b := by
  have hall := newline_not_mem_digits (b.rounding.shortest style.tie).digits
  have hdigits : '\n' ∉ ((decimalDigits (b.rounding.shortest style.tie).digits).reverse.dropWhile
      (· == '0')).reverse := by
    intro hmem
    have hkept := (List.dropWhile_sublist _).subset (List.mem_reverse.mp hmem)
    exact hall (List.mem_reverse.mp hkept)
  unfold DecimalStyle.magnitude
  dsimp only
  split
  · exact newline_not_mem_positional _ hdigits
  · simp [newline_not_mem_pointed hdigits, newline_not_mem_exponentText]

theorem oneLine_write (style : DecimalStyle) (x : Float) : OneLine (style.write x) := by
  unfold DecimalStyle.write
  split
  · simp [OneLine]
  · exact oneLine_signed (by decide)
  · apply oneLine_signed
    split
    · exact newline_not_mem_positional 0 (by decide)
    · exact newline_not_mem_magnitude style _

theorem oneLine_scientific (precision pad : Nat) (x : Float) :
    OneLine (scientific precision pad x) := by
  unfold scientific
  split
  · simp [OneLine]
  · exact oneLine_signed (by decide)
  · split
    · have hzeros : '\n' ∉ List.replicate (precision + 1) '0' := by simp
      exact oneLine_signed (by simp [newline_not_mem_pointed hzeros, newline_not_mem_exponentText])
    · have hdigits (n : Nat) : '\n' ∉ pointed (decimalDigits n) :=
        newline_not_mem_pointed (newline_not_mem_digits n)
      exact oneLine_signed (by simp [hdigits, newline_not_mem_exponentText])

end Number

end Numbers

namespace Text

/-- The pieces of a split hold none of the characters that it was split on. -/
theorem unsplit_of_mem_splitOnP (p : Char → Bool) (cs : List Char) :
    ∀ piece ∈ cs.splitOnP p, ∀ c ∈ piece, p c = false := by
  induction cs with
  | nil => simp [List.splitOnP_nil]
  | cons first rest ih =>
    rw [List.splitOnP_cons_eq_if_modifyHead]
    cases hfirst : p first with
    | true => simpa using ih
    | false =>
      cases hpieces : rest.splitOnP p with
      | nil => simp
      | cons piece pieces =>
        rw [hpieces, List.forall_mem_cons] at ih
        simp only [Bool.false_eq_true, if_false, List.modifyHead_cons, List.forall_mem_cons]
        exact ⟨⟨hfirst, ih.1⟩, ih.2⟩

/-- A text without a blank has no newline. -/
theorem newline_not_mem_of_not_blank {cs : List Char} (h : ∀ c ∈ cs, isBlank c = false) :
    '\n' ∉ cs :=
  fun hmem => absurd (h '\n' hmem) (by decide)

theorem not_blank_of_mem_words {cs word : List Char} (h : word ∈ words cs) :
    ∀ c ∈ word, isBlank c = false :=
  unsplit_of_mem_splitOnP isBlank cs word (List.mem_filter.mp h).1

theorem newline_not_mem_lower {cs : List Char} (h : '\n' ∉ cs) : '\n' ∉ lower cs := by
  intro hmem
  obtain ⟨c, hc, hlower⟩ := List.mem_map.mp hmem
  rw [(toLower_eq_iff (by decide)).mp hlower] at hc
  exact h hc

theorem oneLine_of_mem_tokens {delimiters cs : List Char} :
    ∀ t ∈ tokens delimiters cs, OneLine t := by
  intro t ht
  obtain ⟨word, hword, rfl⟩ := List.mem_map.mp ht
  have hnewline := newline_not_mem_of_not_blank (not_blank_of_mem_words hword)
  exact oneLine_ofList.mpr (newline_not_mem_lower hnewline)

theorem oneLine_of_mem_splitTokens {delimiters : List Char} {ts : List String} :
    ∀ t ∈ splitTokens delimiters ts, OneLine t := by
  intro t ht
  obtain ⟨whole, -, ht⟩ := List.mem_flatMap.mp ht
  exact oneLine_of_mem_tokens t ht

theorem newline_not_mem_trim {cs : List Char} (h : '\n' ∉ cs) : '\n' ∉ trim cs := by
  intro hmem
  have hend := (List.dropWhile_sublist _).subset (List.mem_reverse.mp hmem)
  exact h ((List.dropWhile_sublist _).subset (List.mem_reverse.mp hend))

/-- The lines of a text. -/
theorem newline_not_mem_of_mem_lines {text line : List Char} (h : line ∈ lines text) :
    '\n' ∉ line := by
  have hpiece {piece : List Char} (hmem : piece ∈ text.splitOn '\n') : '\n' ∉ piece := by
    intro hnewline
    rw [List.splitOn_eq_splitOnP] at hmem
    exact absurd (unsplit_of_mem_splitOnP _ text piece hmem '\n' hnewline) (by decide)
  rcases List.mem_append.mp h with h | h
  · obtain ⟨piece, hmem, rfl⟩ := List.mem_map.mp h
    have hnone := hpiece ((List.dropLast_sublist _).subset hmem)
    unfold dropReturn
    split
    · exact fun hnewline => hnone ((List.dropLast_sublist _).subset hnewline)
    · exact hnone
  · split at h
    · exact absurd h List.not_mem_nil
    · have hne : text.splitOn '\n' ≠ [] := by simp
      rw [List.mem_singleton.mp h, List.getLast?_eq_some_getLast hne]
      exact hpiece (List.getLast_mem hne)

end Text

end TransportDeck
