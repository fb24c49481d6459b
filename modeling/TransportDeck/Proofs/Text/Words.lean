import TransportDeck.Proofs.Text.OneLine

namespace TransportDeck.Text

structure IsWord (word : List Char) : Prop where
  ne_nil : word ≠ []
  unbroken : ∀ c ∈ word, isBlank c = false

variable {cs word : List Char}

theorem isWord_of_mem_words (h : word ∈ words cs) : IsWord word :=
  ⟨by simpa using (List.mem_filter.mp h).2, not_blank_of_mem_words h⟩

/-- A blank belongs to no word. -/
theorem words_append_cons {blank : Char} (h : isBlank blank = true) (front back : List Char) :
    words (front ++ blank :: back) = words front ++ words back := by
  rw [words, List.splitOnP_append_cons front back h, List.filter_append, words, words]

theorem words_cons_of_blank {blank : Char} (h : isBlank blank = true) (cs : List Char) :
    words (blank :: cs) = words cs :=
  words_append_cons h [] cs

theorem words_append_of_blank {blanks : List Char} (h : ∀ c ∈ blanks, isBlank c = true)
    (cs : List Char) : words (blanks ++ cs) = words cs := by
  induction blanks with
  | nil => rfl
  | cons blank blanks ih =>
    rw [List.cons_append, words_cons_of_blank (h blank List.mem_cons_self)]
    exact ih fun c hc => h c (List.mem_cons_of_mem blank hc)

/-- A text that ends in a blank keeps its words from what follows. -/
theorem words_append_of_getLast? {front : List Char} (h : ∀ c ∈ front.getLast?, isBlank c = true)
    (back : List Char) : words (front ++ back) = words front ++ words back := by
  cases hlast : front.getLast? with
  | none =>
    rw [List.getLast?_eq_none_iff.mp hlast]
    rfl
  | some blank =>
    obtain ⟨init, rfl⟩ := List.getLast?_eq_some_iff.mp hlast
    have hblank : isBlank blank = true := h blank hlast
    have hinit : words (init ++ [blank]) = words init := by
      rw [words_append_cons hblank]
      exact List.append_nil _
    rw [hinit, List.append_assoc, List.singleton_append, words_append_cons hblank]

theorem IsWord.words_eq (h : IsWord word) : words word = [word] := by
  rw [words, List.splitOnP_eq_singleton h.unbroken]
  simp [h.ne_nil]

/-- A word ends where the text after it is empty or starts with a blank. -/
theorem IsWord.words_append (h : IsWord word) (hend : ∀ c ∈ cs.head?, isBlank c = true) :
    words (word ++ cs) = word :: words cs := by
  cases cs with
  | nil => rw [List.append_nil, h.words_eq]; rfl
  | cons blank cs =>
    have hblank : isBlank blank = true := hend blank rfl
    rw [words_append_cons hblank, h.words_eq, words_cons_of_blank hblank]
    rfl

/-- What a blank divides into two is made up of what the words give. -/
theorem flatMap_words {β : Type} {f : List Char → List β} (hnil : f [] = [])
    (hblank : ∀ front back blank, isBlank blank = true →
      f (front ++ blank :: back) = f front ++ f back) (cs : List Char) :
    (words cs).flatMap f = f cs := by
  induction hsize : cs.length using Nat.strong_induction_on generalizing cs with
  | _ size ih =>
    subst hsize
    by_cases hunbroken : ∀ c ∈ cs, isBlank c = false
    · by_cases hempty : cs = []
      · rw [hempty, hnil]
        rfl
      · rw [IsWord.words_eq ⟨hempty, hunbroken⟩, List.flatMap_singleton]
    · simp only [not_forall, Bool.not_eq_false] at hunbroken
      obtain ⟨blank, hmem, hb⟩ := hunbroken
      obtain ⟨front, back, rfl⟩ := List.append_of_mem hmem
      have hfront := ih front.length (by simp) front rfl
      have hback := ih back.length (by simp; omega) back rfl
      rw [words_append_cons hb, List.flatMap_append, hfront, hback, hblank front back blank hb]

theorem words_intercalate {parts : List (List Char)} (h : ∀ part ∈ parts, IsWord part) :
    words ([' '].intercalate parts) = parts := by
  induction parts with
  | nil => rfl
  | cons part parts ih =>
    have hpart := h part List.mem_cons_self
    have hparts := ih fun p hp => h p (List.mem_cons_of_mem part hp)
    cases parts with
    | nil => rw [List.intercalate_singleton, hpart.words_eq]
    | cons next parts =>
      have hspace : isBlank ' ' = true := by decide
      rw [List.intercalate_cons_cons, List.append_assoc, List.singleton_append,
        words_append_cons hspace, hparts, hpart.words_eq, List.singleton_append]

/-- Joining is undone by cutting into words. -/
theorem words_joined {texts : List String} (h : ∀ t ∈ texts, IsWord t.toList) :
    words (joined " " texts).toList = texts.map String.toList := by
  rw [joined, String.toList_intercalate]
  apply words_intercalate
  intro part hpart
  obtain ⟨t, ht, rfl⟩ := List.mem_map.mp hpart
  exact h t ht

end TransportDeck.Text
