import Mathlib.Data.List.TakeWhile
import TransportDeck.Text.Line

namespace TransportDeck.Text

section Characters

variable {c d : Char}

theorem toNat_toLower (c : Char) :
    c.toLower.toNat = if 65 ≤ c.toNat ∧ c.toNat ≤ 90 then c.toNat + 32 else c.toNat := by
  have hupper : ('A'.val ≤ c.val ∧ c.val ≤ 'Z'.val) ↔ (65 ≤ c.toNat ∧ c.toNat ≤ 90) := by
    rw [UInt32.le_iff_toNat_le, UInt32.le_iff_toNat_le]
    rfl
  unfold Char.toLower
  split
  · next h =>
    have hrange := hupper.mp h
    have hsum : (c.val + ('a'.val - 'A'.val)).toNat = (c.toNat + 32) % 2 ^ 32 := UInt32.toNat_add ..
    rw [if_pos hrange]
    change (c.val + ('a'.val - 'A'.val)).toNat = c.toNat + 32
    omega
  · next h => rw [if_neg (mt hupper.mpr h)]

theorem isAlpha_iff : c.isAlpha = true ↔
    (65 ≤ c.toNat ∧ c.toNat ≤ 90) ∨ (97 ≤ c.toNat ∧ c.toNat ≤ 122) := by
  have hupper : c.isUpper = true ↔ 65 ≤ c.toNat ∧ c.toNat ≤ 90 :=
    decide_eq_true_iff.trans (and_congr UInt32.le_iff_toNat_le UInt32.le_iff_toNat_le)
  have hlower : c.isLower = true ↔ 97 ≤ c.toNat ∧ c.toNat ≤ 122 := by
    refine Bool.and_eq_true_iff.trans (and_congr ?_ ?_)
    · exact decide_eq_true_iff.trans UInt32.le_iff_toNat_le
    · exact decide_eq_true_iff.trans UInt32.le_iff_toNat_le
  exact Bool.or_eq_true_iff.trans (or_congr hupper hlower)

theorem isDigit_iff : c.isDigit = true ↔ 48 ≤ c.toNat ∧ c.toNat ≤ 57 := by
  refine Bool.and_eq_true_iff.trans (and_congr ?_ ?_)
  · exact decide_eq_true_iff.trans UInt32.le_iff_toNat_le
  · exact decide_eq_true_iff.trans UInt32.le_iff_toNat_le

theorem not_isDigit_of_isAlpha (h : c.isAlpha = true) : c.isDigit = false := by
  have hrange := isAlpha_iff.mp h
  rw [Bool.eq_false_iff, Ne, isDigit_iff]
  omega

theorem not_isBlank_of_isAlpha (h : c.isAlpha = true) : isBlank c = false := by
  have hrange := isAlpha_iff.mp h
  simp only [isBlank, Bool.or_eq_false_iff, Bool.and_eq_false_iff, decide_eq_false_iff_not,
    beq_eq_false_iff_ne]
  omega

theorem not_isBlank_of_isDigit (h : c.isDigit = true) : isBlank c = false := by
  have hrange := isDigit_iff.mp h
  simp only [isBlank, Bool.or_eq_false_iff, Bool.and_eq_false_iff, decide_eq_false_iff_not,
    beq_eq_false_iff_ne]
  omega

/-- Only letters change, and they change into letters. -/
theorem toLower_eq_self_or (c : Char) :
    c.toLower = c ∨ (c.isAlpha = true ∧ c.toLower.isAlpha = true) := by
  by_cases hupper : 65 ≤ c.toNat ∧ c.toNat ≤ 90
  · -- the small letters stand 32 places after the capital ones
    have hlower := toNat_toLower c
    rw [if_pos hupper] at hlower
    exact .inr ⟨isAlpha_iff.mpr (.inl hupper), isAlpha_iff.mpr (.inr (by omega))⟩
  · left
    apply Char.toNat_inj.mp
    rw [toNat_toLower, if_neg hupper]

theorem toLower_of_isDigit (h : c.isDigit = true) : c.toLower = c := by
  refine (toLower_eq_self_or c).resolve_right ?_
  rintro ⟨hletter, _⟩
  rw [not_isDigit_of_isAlpha hletter] at h
  cases h

/-- What is the same for all letters does not see their case. -/
theorem apply_toLower {β : Type} {f : Char → β} {b : β} (h : ∀ c, c.isAlpha = true → f c = b)
    (c : Char) : f c.toLower = f c := by
  rcases toLower_eq_self_or c with hself | ⟨hletter, hlower⟩
  · rw [hself]
  · rw [h c hletter, h _ hlower]

theorem isAlpha_toLower : c.toLower.isAlpha = c.isAlpha :=
  apply_toLower (fun _ h => h) c

theorem isBlank_toLower (c : Char) : isBlank c.toLower = isBlank c :=
  apply_toLower (fun _ hletter => not_isBlank_of_isAlpha hletter) c

theorem isDigit_toLower (c : Char) : c.toLower.isDigit = c.isDigit :=
  apply_toLower (fun _ hletter => not_isDigit_of_isAlpha hletter) c

/-- A sign that is no letter is found in a lower case text where it was. -/
theorem beq_toLower (hd : d.isAlpha = false) (c : Char) : (c.toLower == d) = (c == d) := by
  apply apply_toLower (f := (· == d)) (b := false)
  rintro c hletter
  rw [beq_eq_false_iff_ne]
  rintro rfl
  rw [hletter] at hd
  cases hd

theorem toLower_eq_iff (hd : d.isAlpha = false) : c.toLower = d ↔ c = d := by
  rw [← beq_iff_eq, beq_toLower hd, beq_iff_eq]

theorem toLower_toLower (c : Char) : c.toLower.toLower = c.toLower := by
  have hlower : ¬ (65 ≤ c.toLower.toNat ∧ c.toLower.toNat ≤ 90) := by
    rw [toNat_toLower]
    split <;> omega
  apply Char.toNat_inj.mp
  rw [toNat_toLower c.toLower, if_neg hlower]

end Characters

def lowered (text : String) : String :=
  String.ofList (lower text.toList)

section Lists

variable {p : Char → Bool}

theorem lower_lower (cs : List Char) : lower (lower cs) = lower cs := by
  rw [lower, lower, List.map_map]
  exact List.map_congr_left fun c _ => toLower_toLower c

@[simp] theorem toList_lowered (text : String) : (lowered text).toList = lower text.toList :=
  String.toList_ofList

@[simp] theorem lowered_ofList (cs : List Char) :
    lowered (String.ofList cs) = String.ofList (lower cs) := by
  rw [lowered, String.toList_ofList]

theorem lowered_append (front back : String) :
    lowered (front ++ back) = lowered front ++ lowered back := by
  rw [lowered, String.toList_append, lower, List.map_append, String.ofList_append]
  rfl

theorem takeWhile_lower (hp : ∀ c, p c.toLower = p c) (cs : List Char) :
    (lower cs).takeWhile p = lower (cs.takeWhile p) := by
  rw [lower, List.takeWhile_map, show p ∘ Char.toLower = p from funext hp]
  rfl

theorem dropWhile_lower (hp : ∀ c, p c.toLower = p c) (cs : List Char) :
    (lower cs).dropWhile p = lower (cs.dropWhile p) := by
  rw [lower, List.dropWhile_map, show p ∘ Char.toLower = p from funext hp]
  rfl

theorem splitOnP_lower (hp : ∀ c, p c.toLower = p c) (cs : List Char) :
    (lower cs).splitOnP p = (cs.splitOnP p).map lower := by
  induction cs with
  | nil => rfl
  | cons c rest ih =>
    change (c.toLower :: lower rest).splitOnP p = _
    rw [List.splitOnP_cons_eq_if_modifyHead, List.splitOnP_cons_eq_if_modifyHead, hp, ih]
    split
    · rfl
    · cases rest.splitOnP p <;> rfl

theorem getLast?_lower {d : Char} (hd : d.isAlpha = false) {cs : List Char} :
    (lower cs).getLast? = some d ↔ cs.getLast? = some d := by
  rw [lower, List.getLast?_map]
  cases cs.getLast? with
  | none => simp
  | some c => simp [toLower_eq_iff hd]

end Lists

section Blanks

theorem isBlankText_lower (cs : List Char) : isBlankText (lower cs) = isBlankText cs := by
  rw [isBlankText, lower, List.all_map,
    show isBlank ∘ Char.toLower = isBlank from funext isBlank_toLower]
  rfl

theorem trimStart_lower (cs : List Char) : trimStart (lower cs) = lower (trimStart cs) :=
  dropWhile_lower isBlank_toLower cs

theorem trimEnd_lower (cs : List Char) : trimEnd (lower cs) = lower (trimEnd cs) := by
  have hreverse (cs : List Char) : (lower cs).reverse = lower cs.reverse := List.map_reverse.symm
  rw [trimEnd, hreverse, dropWhile_lower isBlank_toLower, hreverse]
  rfl

theorem trim_lower (cs : List Char) : trim (lower cs) = lower (trim cs) := by
  rw [trim, trimStart_lower, trimEnd_lower]
  rfl

theorem words_lower (cs : List Char) : words (lower cs) = (words cs).map lower := by
  have hempty : ((fun w : List Char => !w.isEmpty) ∘ lower) = fun w => !w.isEmpty := by
    funext w
    cases w <;> rfl
  rw [words, splitOnP_lower isBlank_toLower, List.filter_map, hempty]
  rfl

theorem spaced_lower {delimiters : List Char} (hd : delimiters.any Char.isAlpha = false)
    (cs : List Char) : spaced delimiters (lower cs) = lower (spaced delimiters cs) := by
  have hcontains (c : Char) : delimiters.contains c.toLower = delimiters.contains c := by
    apply apply_toLower (f := delimiters.contains) (b := false)
    intro c hletter
    rw [List.contains_eq_mem, decide_eq_false_iff_not]
    intro hmem
    exact List.any_eq_false.mp hd c hmem hletter
  have hspaced (c : Char) :
      (if delimiters.contains c.toLower then [' ', c.toLower, ' '] else [c.toLower]) =
        lower (if delimiters.contains c then [' ', c, ' '] else [c]) := by
    rw [hcontains]
    split <;> rfl
  rw [spaced, lower, List.flatMap_map]
  simp only [hspaced]
  exact List.map_flatMap.symm

/-- Tokens are in lower case already. -/
theorem tokens_lower {delimiters : List Char} (hd : delimiters.any Char.isAlpha = false)
    (cs : List Char) : tokens delimiters (lower cs) = tokens delimiters cs := by
  rw [tokens, spaced_lower hd, words_lower, List.map_map, tokens]
  exact List.map_congr_left fun w _ => congrArg String.ofList (lower_lower w)

end Blanks

section Lines

theorem dropReturn_lower (line : List Char) :
    dropReturn (lower line) = lower (dropReturn line) := by
  unfold dropReturn
  simp only [getLast?_lower (d := '\r') (by decide)]
  split
  · exact List.map_dropLast.symm
  · rfl

theorem lines_lower (text : List Char) : lines (lower text) = (lines text).map lower := by
  have hsplit : (lower text).splitOn '\n' = (text.splitOn '\n').map lower :=
    splitOnP_lower (beq_toLower (by decide)) text
  have hrest : (((text.splitOn '\n').map lower).getLast?.getD []) =
      lower ((text.splitOn '\n').getLast?.getD []) := by
    rw [List.getLast?_map]
    cases (text.splitOn '\n').getLast? <;> rfl
  have hempty (rest : List Char) : (lower rest).isEmpty = rest.isEmpty := List.isEmpty_map
  simp only [lines, hsplit, hrest, hempty, List.map_append, List.map_map]
  congr 1
  · rw [← List.map_dropLast, List.map_map]
    exact List.map_congr_left fun line _ => dropReturn_lower line
  · split <;> rfl

theorem indentFrom_lower (column : Nat) (line : List Char) :
    indentFrom column (lower line) = indentFrom column line := by
  induction line generalizing column with
  | nil => rfl
  | cons c rest ih =>
    by_cases hspace : c = ' '
    · subst hspace
      exact ih (column + 1)
    · by_cases htab : c = '\t'
      · subst htab
        exact ih _
      · have hspace' : c.toLower ≠ ' ' := mt (toLower_eq_iff (by decide)).mp hspace
        have htab' : c.toLower ≠ '\t' := mt (toLower_eq_iff (by decide)).mp htab
        change indentFrom column (c.toLower :: lower rest) = _
        rw [indentFrom, indentFrom]
        · exact fun _ h => hspace (List.cons.inj h).1
        · exact fun _ h => htab (List.cons.inj h).1
        · exact fun _ h => hspace' (List.cons.inj h).1
        · exact fun _ h => htab' (List.cons.inj h).1

theorem isComment_lower (line : List Char) : isComment (lower line) = isComment line := by
  have hletter (c : Char) : (c.toLower == 'c' || c.toLower == 'C') = (c == 'c' || c == 'C') := by
    have hcode := toNat_toLower c
    rw [Bool.eq_iff_iff]
    simp only [Bool.or_eq_true, beq_iff_eq, ← Char.toNat_inj, hcode]
    change (_ = 99 ∨ _ = 67) ↔ (_ = 99 ∨ _ = 67)
    split <;> omega
  rw [isComment, isComment, trimStart_lower]
  cases trimStart line with
  | nil => rfl
  | cons c rest =>
    change ((c.toLower == 'c' || c.toLower == 'C') && (lower rest).head?.all isBlank) = _
    rw [hletter]
    cases rest with
    | nil => rfl
    | cons next rest =>
      change (_ && isBlank next.toLower) = (_ && isBlank next)
      rw [isBlank_toLower]

theorem quoteAfter_toLower {quote : Option Char} (hquote : ∀ q ∈ quote, q.isAlpha = false)
    (c : Char) : quoteAfter quote c.toLower = quoteAfter quote c := by
  cases quote with
  | none =>
    rcases toLower_eq_self_or c with hself | ⟨hletter, hlower⟩
    · rw [hself]
    · have hmark {d : Char} (hd : d.isAlpha = true) : ¬ (d = '"' ∨ d = '\'') := by
        rintro (rfl | rfl) <;> cases hd
      rw [quoteAfter, quoteAfter, if_neg (hmark hletter), if_neg (hmark hlower)]
  | some q =>
    simp only [quoteAfter, toLower_eq_iff (hquote q rfl)]

/-- No letter opens a quotation. -/
theorem not_isAlpha_quoteAfter {quote : Option Char} (hquote : ∀ q ∈ quote, q.isAlpha = false)
    (c : Char) : ∀ q ∈ quoteAfter quote c, q.isAlpha = false := by
  intro q hq
  cases quote with
  | none =>
    rw [quoteAfter] at hq
    split at hq
    · next hmark =>
      cases hq
      rcases hmark with rfl | rfl <;> rfl
    · cases hq
  | some open' =>
    rw [quoteAfter] at hq
    split at hq
    · cases hq
    · cases hq
      exact hquote q rfl

theorem cutComment_lower {quote : Option Char} (hquote : ∀ q ∈ quote, q.isAlpha = false)
    (line : List Char) : cutComment quote (lower line) =
      (lower (cutComment quote line).1, (cutComment quote line).2.map lower) := by
  induction line generalizing quote with
  | nil => rfl
  | cons c rest ih =>
    have hcut : quote = none ∧ c.toLower = '$' ↔ quote = none ∧ c = '$' :=
      and_congr_right fun _ => toLower_eq_iff (by decide)
    change cutComment quote (c.toLower :: lower rest) = _
    rw [cutComment, cutComment]
    simp only [hcut, quoteAfter_toLower hquote, ih (not_isAlpha_quoteAfter hquote c)]
    split <;> rfl

theorem splitComment_lower (line : List Char) : splitComment (lower line) =
    (lower (splitComment line).1, (splitComment line).2.map lower) :=
  cutComment_lower (fun _ hq => absurd hq (Option.not_mem_none _)) line

end Lines

end TransportDeck.Text
