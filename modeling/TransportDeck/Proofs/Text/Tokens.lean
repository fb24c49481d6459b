import TransportDeck.Proofs.Text.Bytes
import TransportDeck.Proofs.Text.Words

namespace TransportDeck.Text

variable {delimiters word blanks text : List Char}

theorem spaced_append (delimiters front back : List Char) :
    spaced delimiters (front ++ back) = spaced delimiters front ++ spaced delimiters back :=
  List.flatMap_append

theorem spaced_eq_self (h : ∀ c ∈ text, delimiters.contains c = false) :
    spaced delimiters text = text := by
  rw [spaced, List.flatMap_congr (g := fun c => [c]) fun c hc => by rw [h c hc]; rfl]
  exact List.flatMap_singleton' text

def EndsWord (delimiters text : List Char) : Prop :=
  ∀ c ∈ text.head?, isBlank c = true ∨ delimiters.contains c = true

instance (delimiters text : List Char) : Decidable (EndsWord delimiters text) :=
  Option.decidableForallMem text.head?

theorem EndsWord.spaced (h : EndsWord delimiters text) :
    ∀ c ∈ (spaced delimiters text).head?, isBlank c = true := by
  cases text with
  | nil => exact fun c hc => absurd hc (Option.not_mem_none c)
  | cons first text =>
    have hfirst := h first rfl
    rw [Text.spaced, List.flatMap_cons]
    split
    · rintro _ ⟨⟩
      decide
    · next hplain =>
      rintro _ ⟨⟩
      exact hfirst.resolve_right hplain

/-- The first token is the word in front. -/
theorem tokens_word_append (hword : IsWord word) (hplain : ∀ c ∈ word, delimiters.contains c = false)
    (hend : EndsWord delimiters text) :
    tokens delimiters (word ++ text) = String.ofList (lower word) :: tokens delimiters text := by
  rw [tokens, spaced_append, spaced_eq_self hplain, hword.words_append hend.spaced, List.map_cons, tokens]

/-- A delimiter is a token of its own. -/
theorem tokens_append_cons {c : Char} (hc : delimiters.contains c = true) (hblank : isBlank c = false)
    (front back : List Char) : tokens delimiters (front ++ c :: back) =
      tokens delimiters front ++ String.ofList [c.toLower] :: tokens delimiters back := by
  have hspace : isBlank ' ' = true := by decide
  have hspaced : spaced delimiters (front ++ c :: back) =
      spaced delimiters front ++ ' ' :: ([c] ++ ' ' :: spaced delimiters back) := by
    rw [spaced_append, spaced, spaced, List.flatMap_cons, if_pos hc]
    rfl
  have hword : words [c] = [[c]] := IsWord.words_eq ⟨List.cons_ne_nil c [], by simpa using hblank⟩
  rw [tokens, hspaced, words_append_cons hspace, words_append_cons hspace, hword]
  simp [tokens, lower]

theorem tokens_cons {c : Char} (hc : delimiters.contains c = true) (hblank : isBlank c = false)
    (text : List Char) :
    tokens delimiters (c :: text) = String.ofList [c.toLower] :: tokens delimiters text :=
  tokens_append_cons hc hblank [] text

theorem tokens_blanks_append (h : ∀ c ∈ blanks, isBlank c = true)
    (hdelimiters : ∀ d ∈ delimiters, isBlank d = false) (text : List Char) :
    tokens delimiters (blanks ++ text) = tokens delimiters text := by
  have hplain : ∀ c ∈ blanks, delimiters.contains c = false := by
    intro c hc
    rw [Bool.eq_false_iff, Ne, List.contains_iff_mem]
    intro hd
    have hblank := h c hc
    rw [hdelimiters c hd] at hblank
    cases hblank
  rw [tokens, spaced_append, spaced_eq_self hplain, words_append_of_blank h, tokens]

/-- A sign that a text does not hold is not among its tokens. -/
theorem not_mem_tokens {c : Char} (hc : c.isAlpha = false) (h : c ∉ text) :
    String.ofList [c] ∉ tokens delimiters text := by
  intro hmem
  obtain ⟨word, hword, heq⟩ := List.mem_map.mp hmem
  obtain ⟨d, rfl, hd⟩ := List.map_eq_singleton_iff.mp (String.ofList_injective heq)
  rw [toLower_eq_iff hc] at hd
  have hflat : d ∈ (words (spaced delimiters text)).flatten :=
    List.mem_flatten_of_mem hword (List.mem_singleton_self d)
  rw [flatten_words, filter_spaced] at hflat
  exact h (hd ▸ List.mem_of_mem_filter hflat)

section Parts

variable {inner outer front : List Char}

def StartsWord (delimiters text : List Char) : Prop :=
  ∀ c ∈ text.getLast?, isBlank c = true ∨ delimiters.contains c = true

instance (delimiters text : List Char) : Decidable (StartsWord delimiters text) :=
  Option.decidableForallMem text.getLast?

theorem StartsWord.spaced (h : StartsWord delimiters front) :
    ∀ c ∈ (spaced delimiters front).getLast?, isBlank c = true := by
  cases hlast : front.getLast? with
  | none =>
    rw [List.getLast?_eq_none_iff.mp hlast]
    exact fun c hc => absurd hc (Option.not_mem_none c)
  | some last =>
    obtain ⟨init, rfl⟩ := List.getLast?_eq_some_iff.mp hlast
    rw [spaced_append, Text.spaced, Text.spaced, List.flatMap_singleton, List.getLast?_append]
    split
    · rintro _ ⟨⟩
      change isBlank ' ' = true
      decide
    · next hplain =>
      rintro _ ⟨⟩
      exact (h last hlast).resolve_right hplain

/-- Where no word goes on, the tokens are those of the two parts. -/
theorem tokens_append (h : StartsWord delimiters front) (back : List Char) :
    tokens delimiters (front ++ back) = tokens delimiters front ++ tokens delimiters back := by
  rw [tokens, spaced_append, words_append_of_getLast? h.spaced, List.map_append, tokens, tokens]

theorem splitTokens_append (ts us : List String) :
    splitTokens delimiters (ts ++ us) = splitTokens delimiters ts ++ splitTokens delimiters us :=
  List.flatMap_append

/-- Tokens that are cut further are those that all the delimiters give at once. -/
theorem splitTokens_tokens (hletters : inner.any Char.isAlpha = false)
    (hblanks : inner.any isBlank = false) (hapart : ∀ c ∈ outer, inner.contains c = false)
    (cs : List Char) :
    splitTokens inner (tokens outer cs) = tokens (outer ++ inner) cs := by
  have hspace : isBlank ' ' = true := by decide
  have hplain (c : Char) (hc : isBlank c = true) : inner.contains c = false := by
    rw [Bool.eq_false_iff, Ne, List.contains_iff_mem]
    intro hmem
    exact List.any_eq_false.mp hblanks c hmem hc
  have hdivide (front back : List Char) (blank : Char) (hblank : isBlank blank = true) :
      tokens inner (front ++ blank :: back) = tokens inner front ++ tokens inner back := by
    have hspaced : spaced inner (blank :: back) = blank :: spaced inner back := by
      rw [spaced, List.flatMap_cons, if_neg (Bool.eq_false_iff.mp (hplain blank hblank))]
      rfl
    rw [tokens, spaced_append, hspaced, words_append_cons hblank, List.map_append, tokens, tokens]
  -- a sign of `outer` is set apart already, and `inner` leaves it and the blanks as they are
  have htwice : spaced inner (spaced outer cs) = spaced (outer ++ inner) cs := by
    rw [spaced, spaced, List.flatMap_assoc, spaced]
    refine List.flatMap_congr fun c _ => ?_
    have hboth : (outer ++ inner).contains c = (outer.contains c || inner.contains c) := by
      simp [List.contains_eq_mem]
    rw [hboth]
    cases hout : outer.contains c with
    | false => simp
    | true =>
      have hc : inner.contains c = false := hapart c (List.contains_iff_mem.mp hout)
      simp only [Bool.true_or, if_true, List.flatMap_cons, List.flatMap_nil, hc, hplain ' ' hspace,
        Bool.false_eq_true, if_false]
      rfl
  calc splitTokens inner (tokens outer cs)
      = (words (spaced outer cs)).flatMap fun w => tokens inner (lower w) := by
        simp [splitTokens, tokens, List.flatMap_map]
    _ = (words (spaced outer cs)).flatMap (tokens inner) := by
        simp only [tokens_lower hletters]
    _ = tokens inner (spaced outer cs) := flatMap_words rfl hdivide _
    _ = tokens (outer ++ inner) cs := by rw [tokens, htwice, tokens]

end Parts

end TransportDeck.Text
