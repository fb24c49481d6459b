import TransportDeck.Proofs.Text.Stops
import TransportDeck.Text.Line

namespace TransportDeck.Text

variable {blanks cs : List Char}

theorem trimStart_append_of_blank (h : ∀ c ∈ blanks, isBlank c = true) (cs : List Char) :
    trimStart (blanks ++ cs) = trimStart cs :=
  List.dropWhile_append_of_pos h

theorem trimEnd_append_of_blank (h : ∀ c ∈ blanks, isBlank c = true) (cs : List Char) :
    trimEnd (cs ++ blanks) = trimEnd cs := by
  have hreverse : ∀ c ∈ blanks.reverse, isBlank c = true := by simpa using h
  rw [trimEnd, List.reverse_append, List.dropWhile_append_of_pos hreverse]
  rfl

/-- A text is what trimming leaves of it, and blanks. -/
theorem exists_blanks_trimEnd (cs : List Char) :
    ∃ blanks, (∀ c ∈ blanks, isBlank c = true) ∧ trimEnd cs ++ blanks = cs := by
  refine ⟨(cs.reverse.takeWhile isBlank).reverse, ?_, ?_⟩
  · intro c hc
    exact List.all_eq_true.mp List.all_takeWhile c (List.mem_reverse.mp hc)
  · rw [trimEnd, ← List.reverse_append, List.takeWhile_append_dropWhile, List.reverse_reverse]

theorem trimEnd_append_of_not_blank (h : isBlankText cs = false) (front : List Char) :
    trimEnd (front ++ cs) = front ++ trimEnd cs := by
  have hleft : (cs.reverse.dropWhile isBlank).isEmpty = false := by
    rw [List.isEmpty_eq_false_iff]
    intro hnil
    have hall : ∀ c ∈ cs, isBlank c = true := by simpa using List.dropWhile_eq_nil_iff.mp hnil
    rw [isBlankText, List.all_eq_true.mpr hall] at h
    cases h
  rw [trimEnd, List.reverse_append, List.dropWhile_append, hleft]
  simp [trimEnd]

/-- Trimming takes nothing from a run of characters that are not blank. -/
theorem trimEnd_append_of_unbroken {word : List Char} (h : ∀ c ∈ word, isBlank c = false)
    (cs : List Char) : trimEnd (word ++ cs) = word ++ trimEnd cs := by
  cases hcs : isBlankText cs with
  | false => exact trimEnd_append_of_not_blank hcs word
  | true =>
    have hblank : ∀ c ∈ cs, isBlank c = true := List.all_eq_true.mp hcs
    have hword : trimEnd word = word := by
      obtain ⟨blanks, hblanks, hsplit⟩ := exists_blanks_trimEnd word
      have hnone : blanks = [] := by
        apply List.eq_nil_iff_forall_not_mem.mpr
        intro c hc
        have hc' := h c (hsplit ▸ List.mem_append_right _ hc)
        rw [hblanks c hc] at hc'
        cases hc'
      rwa [hnone, List.append_nil] at hsplit
    have hnil : trimEnd cs = [] := trimEnd_append_of_blank hblank []
    rw [trimEnd_append_of_blank hblank, hword, hnil, List.append_nil]

theorem head?_trimEnd (cs : List Char) : ∀ c ∈ (trimEnd cs).head?, c ∈ cs.head? := by
  obtain ⟨blanks, _, hsplit⟩ := exists_blanks_trimEnd cs
  intro c hc
  obtain ⟨rest, hrest⟩ := List.head?_eq_some_iff.mp hc
  rw [← hsplit, hrest]
  rfl

/-- What trimming leaves does not start with a blank. -/
theorem head?_trim (cs : List Char) : ∀ c ∈ (trim cs).head?, isBlank c = false :=
  fun c hc => head?_dropWhile_stops isBlank cs c (head?_trimEnd _ c hc)

theorem trim_append_of_blank (h : ∀ c ∈ blanks, isBlank c = true) (cs : List Char) :
    trim (cs ++ blanks) = trim cs := by
  have hblanks : blanks.dropWhile isBlank = [] := List.dropWhile_eq_nil_iff.mpr h
  rw [trim, trim, trimStart, trimStart, List.dropWhile_append, hblanks]
  cases hcs : cs.dropWhile isBlank with
  | nil => rfl
  | cons c rest => exact trimEnd_append_of_blank h (c :: rest)

theorem trim_trimEnd (cs : List Char) : trim (trimEnd cs) = trim cs := by
  obtain ⟨blanks, hblanks, hcs⟩ := exists_blanks_trimEnd cs
  rw [← trim_append_of_blank hblanks (trimEnd cs), hcs]

/-- After a blank, what follows does not make a comment card of a line or keep it from being one. -/
theorem isComment_append (h : isBlankText cs = false) {more : List Char}
    (hmore : more.head?.all isBlank = true) : isComment (cs ++ more) = isComment cs := by
  cases hstart : cs.dropWhile isBlank with
  | nil =>
    have hall : ∀ c ∈ cs, isBlank c = true := List.dropWhile_eq_nil_iff.mp hstart
    rw [isBlankText, List.all_eq_true.mpr hall] at h
    cases h
  | cons c rest =>
    have happend : trimStart (cs ++ more) = c :: (rest ++ more) := by
      rw [trimStart, List.dropWhile_append, hstart]
      rfl
    rw [isComment, isComment, happend, trimStart, hstart]
    cases rest with
    | nil => simp [hmore]
    | cons next rest => rfl

theorem splitComment_replicate_append (n : Nat) (cs : List Char) :
    splitComment (List.replicate n ' ' ++ cs) =
      (List.replicate n ' ' ++ (splitComment cs).1, (splitComment cs).2) := by
  induction n with
  | zero => rfl
  | succ n ih =>
    have hspace : quoteAfter none ' ' = none := by decide
    rw [splitComment] at ih
    rw [List.replicate_succ, List.cons_append, splitComment, cutComment, if_neg (by decide), hspace, ih]
    rfl

theorem le_indentFrom (column : Nat) (cs : List Char) : column ≤ indentFrom column cs := by
  fun_induction indentFrom column cs with
  | case1 column rest ih => omega
  | case2 column rest ih => omega
  | case3 column cs => exact Nat.le_refl _

theorem le_indentWidth_replicate_append (n : Nat) (cs : List Char) :
    n ≤ indentWidth (List.replicate n ' ' ++ cs) := by
  have hcolumn (column : Nat) :
      column + n ≤ indentFrom column (List.replicate n ' ' ++ cs) := by
    induction n generalizing column with
    | zero => exact le_indentFrom column cs
    | succ n ih =>
      have hnext := ih (column + 1)
      rw [List.replicate_succ, List.cons_append, indentFrom]
      omega
  simpa [indentWidth] using hcolumn 0

/-- What stands after the first character that is no blank does not move a line. -/
theorem indentFrom_append (h : isBlankText cs = false) (column : Nat) (more : List Char) :
    indentFrom column (cs ++ more) = indentFrom column cs := by
  fun_induction indentFrom column cs with
  | case1 column rest ih =>
    rw [List.cons_append, indentFrom, ih (by simpa [isBlankText, isBlank] using h)]
  | case2 column rest ih =>
    rw [List.cons_append, indentFrom, ih (by simpa [isBlankText, isBlank] using h)]
  | case3 cs column hspace htab =>
    cases cs with
    | nil => cases h
    | cons c rest =>
      have hc : c ≠ ' ' := fun hc => hspace rest (hc ▸ rfl)
      have ht : c ≠ '\t' := fun ht => htab rest (ht ▸ rfl)
      rw [List.cons_append]
      simp [indentFrom, hc, ht]

end TransportDeck.Text
