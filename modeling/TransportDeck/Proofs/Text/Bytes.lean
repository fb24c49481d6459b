import Mathlib.Algebra.BigOperators.Group.List.Basic
import Mathlib.Algebra.GroupWithZero.Nat
import Mathlib.Algebra.Order.BigOperators.Group.List
import Mathlib.Algebra.Order.Group.Nat
import TransportDeck.Proofs.Text.LetterCase
import TransportDeck.Text.Line

namespace TransportDeck.Text

def bytes (cs : List Char) : Nat := (cs.map Char.utf8Size).sum

def tokenBytes (ts : List String) : Nat := (ts.map fun t => bytes t.toList).sum

def pieceBytes (pieces : List (List Char)) : Nat := (pieces.map fun p => bytes p + 1).sum

variable {delimiters : List Char} {cs : List Char} {ts : List String}

section Bytes

theorem bytes_cons (c : Char) (cs : List Char) : bytes (c :: cs) = c.utf8Size + bytes cs := by
  rw [bytes, List.map_cons, List.sum_cons, bytes]

theorem bytes_append (before after : List Char) :
    bytes (before ++ after) = bytes before + bytes after := by
  rw [bytes, List.map_append, List.sum_append, bytes, bytes]

theorem bytes_sublist {ds : List Char} (h : cs.Sublist ds) : bytes cs ≤ bytes ds := by
  induction h with
  | slnil => exact Nat.le_refl _
  | cons d _ ih =>
    rw [bytes_cons]
    omega
  | cons_cons d _ ih =>
    rw [bytes_cons, bytes_cons]
    omega

theorem trimEnd_sublist (cs : List Char) : (trimEnd cs).Sublist cs := by
  have hdrop := (List.dropWhile_sublist isBlank (l := cs.reverse)).reverse
  rwa [List.reverse_reverse] at hdrop

theorem trim_sublist (cs : List Char) : (trim cs).Sublist cs :=
  (trimEnd_sublist _).trans (List.dropWhile_sublist isBlank)

theorem length_le_bytes (cs : List Char) : cs.length ≤ bytes cs := by
  induction cs with
  | nil => exact Nat.zero_le _
  | cons c cs ih =>
    have hpos : 0 < c.utf8Size := c.utf8Size_pos
    rw [bytes_cons, List.length_cons]
    omega

/-- A character takes one byte exactly if it is an ASCII character. -/
theorem utf8Size_eq_one_iff {c : Char} : c.utf8Size = 1 ↔ c.toNat < 128 := by
  rw [Char.utf8Size_eq_one_iff, UInt32.le_iff_toNat_le]
  exact Nat.lt_succ_iff.symm

theorem utf8Size_toLower (c : Char) : c.toLower.utf8Size = c.utf8Size := by
  by_cases hsmall : c.toNat < 128
  · have hlower : c.toLower.toNat < 128 := by
      rw [toNat_toLower]
      split <;> omega
    rw [utf8Size_eq_one_iff.mpr hlower, utf8Size_eq_one_iff.mpr hsmall]
  · have hsame : c.toLower = c := by
      apply Char.toNat_inj.mp
      rw [toNat_toLower]
      split <;> omega
    rw [hsame]

theorem bytes_lower (cs : List Char) : bytes (lower cs) = bytes cs := by
  rw [bytes, lower, List.map_map, bytes]
  exact congrArg List.sum (List.map_congr_left fun c _ => utf8Size_toLower c)

theorem bytes_flatten (pieces : List (List Char)) : bytes pieces.flatten = (pieces.map bytes).sum := by
  induction pieces with
  | nil => rfl
  | cons piece pieces ih => rw [List.flatten_cons, bytes_append, ih, List.map_cons, List.sum_cons]

theorem pieceBytes_cons (p : List Char) (pieces : List (List Char)) :
    pieceBytes (p :: pieces) = bytes p + 1 + pieceBytes pieces := by
  rw [pieceBytes, List.map_cons, List.sum_cons, pieceBytes]

theorem pieceBytes_append (ps qs : List (List Char)) :
    pieceBytes (ps ++ qs) = pieceBytes ps + pieceBytes qs := by
  rw [pieceBytes, List.map_append, List.sum_append, pieceBytes, pieceBytes]

theorem pieceBytes_sublist {ps qs : List (List Char)} (h : ps.Sublist qs) :
    pieceBytes ps ≤ pieceBytes qs := by
  induction h with
  | slnil => exact Nat.le_refl _
  | cons q _ ih =>
    rw [pieceBytes_cons]
    omega
  | cons_cons q _ ih =>
    rw [pieceBytes_cons, pieceBytes_cons]
    omega

theorem length_le_pieceBytes (pieces : List (List Char)) : pieces.length ≤ pieceBytes pieces := by
  induction pieces with
  | nil => exact Nat.le_refl _
  | cons p pieces ih =>
    rw [pieceBytes_cons, List.length_cons]
    omega

theorem bytes_lt_of_mem {p : List Char} {pieces : List (List Char)} (h : p ∈ pieces) :
    bytes p < pieceBytes pieces := by
  induction pieces with
  | nil => cases h
  | cons q pieces ih =>
    rw [pieceBytes_cons]
    rcases List.mem_cons.mp h with rfl | hrest
    · omega
    · have := ih hrest
      omega

/-- Each separator takes one byte at least. -/
theorem pieceBytes_splitOnP_le (p : Char → Bool) (cs : List Char) :
    pieceBytes (cs.splitOnP p) ≤ bytes cs + 1 := by
  induction cs with
  | nil => exact Nat.le_refl 1
  | cons c cs ih =>
    have hpos : 0 < c.utf8Size := c.utf8Size_pos
    rw [List.splitOnP_cons_eq_if_modifyHead, bytes_cons]
    split
    · rw [pieceBytes_cons]
      change 0 + 1 + _ ≤ _
      omega
    · obtain ⟨first, rest, hsplit⟩ := List.exists_cons_of_ne_nil (List.splitOnP_ne_nil p cs)
      rw [hsplit, pieceBytes_cons] at ih
      rw [hsplit, List.modifyHead_cons, pieceBytes_cons, bytes_cons]
      omega

end Bytes

section Tokens

theorem flatten_splitOnP (p : Char → Bool) (cs : List Char) :
    (cs.splitOnP p).flatten = cs.filter fun c => !p c := by
  induction cs with
  | nil => rfl
  | cons c cs ih =>
    rw [List.splitOnP_cons_eq_if_modifyHead]
    cases hc : p c
    · obtain ⟨first, rest, hsplit⟩ := List.exists_cons_of_ne_nil (List.splitOnP_ne_nil p cs)
      rw [hsplit] at ih ⊢
      rw [List.filter_cons_of_pos (by simp [hc]), ← ih]
      rfl
    · rw [List.filter_cons_of_neg (by simp [hc]), ← ih]
      rfl

theorem flatten_words (cs : List Char) : (words cs).flatten = cs.filter fun c => !isBlank c := by
  rw [words, ← flatten_splitOnP]
  induction cs.splitOnP isBlank with
  | nil => rfl
  | cons word rest ih => cases word <;> simp_all

/-- As many items as there are members in all of them, if none is empty. -/
theorem length_le_length_flatten {words : List (List Char)} (h : ∀ w ∈ words, w ≠ []) :
    words.length ≤ words.flatten.length := by
  induction words with
  | nil => exact Nat.le_refl _
  | cons word rest ih =>
    have hword := List.length_pos_iff.mpr (h word List.mem_cons_self)
    have hrest := ih fun w hw => h w (List.mem_cons_of_mem word hw)
    rw [List.flatten_cons, List.length_append, List.length_cons]
    omega

/-- Delimiters are set apart by blanks only. -/
theorem filter_spaced (delimiters cs : List Char) :
    ((spaced delimiters cs).filter fun c => !isBlank c) = cs.filter fun c => !isBlank c := by
  have hspace : isBlank ' ' = true := by decide
  induction cs with
  | nil => rfl
  | cons c cs ih =>
    rw [spaced, List.flatMap_cons, List.filter_append]
    change _ ++ (spaced delimiters cs).filter _ = _
    rw [ih]
    split <;> cases hc : isBlank c <;> simp [hspace, hc]

theorem tokenBytes_append (ts us : List String) :
    tokenBytes (ts ++ us) = tokenBytes ts + tokenBytes us := by
  rw [tokenBytes, List.map_append, List.sum_append, tokenBytes, tokenBytes]

theorem ne_empty_of_mem_tokens {t : String} (h : t ∈ tokens delimiters cs) : t ≠ "" := by
  obtain ⟨w, hw, rfl⟩ := List.mem_map.mp h
  have hne : w ≠ [] := by simpa using (List.mem_filter.mp hw).2
  simpa [lower, String.ext_iff] using hne

theorem length_le_tokenBytes (h : ∀ t ∈ ts, t ≠ "") : ts.length ≤ tokenBytes ts := by
  induction ts with
  | nil => exact Nat.le_refl _
  | cons t ts ih =>
    have ht : 0 < t.toList.length :=
      List.length_pos_iff.mpr fun hnil => h t List.mem_cons_self (String.toList_eq_nil_iff.mp hnil)
    have hbytes := length_le_bytes t.toList
    have hrest := ih fun u hu => h u (List.mem_cons_of_mem t hu)
    rw [tokenBytes, List.map_cons, List.sum_cons, List.length_cons]
    change ts.length ≤ (ts.map fun t => bytes t.toList).sum at hrest
    omega

theorem tokenBytes_tokens_le (delimiters cs : List Char) :
    tokenBytes (tokens delimiters cs) ≤ bytes cs := by
  have hword (w : List Char) : bytes (String.ofList (lower w)).toList = bytes w := by
    rw [String.toList_ofList, bytes_lower]
  calc tokenBytes (tokens delimiters cs)
      = bytes (words (spaced delimiters cs)).flatten := by
        rw [tokenBytes, tokens, List.map_map, bytes_flatten]
        exact congrArg List.sum (List.map_congr_left fun w _ => hword w)
    _ = bytes (cs.filter fun c => !isBlank c) := by rw [flatten_words, filter_spaced]
    _ ≤ bytes cs := bytes_sublist List.filter_sublist

theorem length_tokens_le (delimiters cs : List Char) :
    (tokens delimiters cs).length ≤ bytes cs :=
  Nat.le_trans (length_le_tokenBytes fun _ => ne_empty_of_mem_tokens)
    (tokenBytes_tokens_le delimiters cs)

/-- Cutting tokens further makes no more of them than they have bytes. -/
theorem length_splitTokens_le (delimiters : List Char) (ts : List String) :
    (splitTokens delimiters ts).length ≤ tokenBytes ts := by
  induction ts with
  | nil => exact Nat.le_refl _
  | cons t ts ih =>
    rw [splitTokens, List.flatMap_cons, List.length_append]
    exact Nat.add_le_add (length_tokens_le delimiters t.toList) ih

/-- Joining puts one blank between each two tokens. -/
theorem bytes_joined (hne : ts ≠ []) :
    bytes (joined " " ts).toList + 1 = pieceBytes (ts.map String.toList) := by
  have hblank : bytes [' '] = 1 := rfl
  induction ts with
  | nil => exact absurd rfl hne
  | cons t ts ih =>
    cases ts with
    | nil => simp [joined, pieceBytes]
    | cons u ts =>
      have hrest := ih (List.cons_ne_nil u ts)
      rw [joined, String.toList_intercalate] at hrest ⊢
      rw [List.map_cons, List.map_cons, List.intercalate_cons_cons, pieceBytes_cons, bytes_append,
        bytes_append, ← List.map_cons, ← hrest]
      change _ + bytes [' '] + _ + 1 = _
      omega

theorem pieceBytes_tokens (ts : List String) :
    pieceBytes (ts.map String.toList) = tokenBytes ts + ts.length := by
  induction ts with
  | nil => rfl
  | cons t ts ih =>
    rw [List.map_cons, pieceBytes_cons, ih, tokenBytes, tokenBytes, List.map_cons, List.sum_cons,
      List.length_cons]
    omega

/-- Tokens that blanks keep apart fit in the text that they come from. -/
theorem bytes_joined_tokens_le (cs : List Char) : bytes (joined " " (tokens [] cs)).toList ≤ bytes cs := by
  have hwords : pieceBytes ((tokens [] cs).map String.toList) = pieceBytes (words cs) := by
    have hspaced : spaced [] cs = cs := by simp [spaced]
    rw [tokens, hspaced, pieceBytes, List.map_map, List.map_map, pieceBytes]
    refine congrArg List.sum (List.map_congr_left fun w _ => ?_)
    simp [bytes_lower]
  have hle : pieceBytes (words cs) ≤ bytes cs + 1 :=
    Nat.le_trans (pieceBytes_sublist List.filter_sublist) (pieceBytes_splitOnP_le isBlank cs)
  by_cases hne : tokens [] cs = []
  · rw [hne]
    exact Nat.zero_le _
  · have hjoined := bytes_joined hne
    omega

end Tokens

section Lines

theorem bytes_dropReturn_le (piece : List Char) : bytes (dropReturn piece) ≤ bytes piece := by
  unfold dropReturn
  split
  · exact bytes_sublist (List.dropLast_sublist piece)
  · exact Nat.le_refl _

/-- The lines of a text with their ends take no more than the text and one end for the last line;
and there are no more of them than bytes. -/
theorem lines_le (cs : List Char) :
    pieceBytes (lines cs) ≤ bytes cs + 1 ∧ (lines cs).length ≤ bytes cs := by
  have hpieces : pieceBytes (cs.splitOn '\n') ≤ bytes cs + 1 := pieceBytes_splitOnP_le _ cs
  have hne : cs.splitOn '\n' ≠ [] := List.splitOn_ne_nil '\n' cs
  obtain ⟨init, last, hsplit⟩ : ∃ init last, cs.splitOn '\n' = init ++ [last] :=
    ⟨_, _, (List.dropLast_append_getLast hne).symm⟩
  have hinit : pieceBytes (init.map dropReturn) ≤ pieceBytes init := by
    rw [pieceBytes, List.map_map]
    exact List.sum_le_sum fun p _ => Nat.succ_le_succ (bytes_dropReturn_le p)
  have hlength : init.length ≤ pieceBytes init := length_le_pieceBytes init
  have hlast : bytes last + 1 = pieceBytes [last] := rfl
  rw [hsplit, pieceBytes_append] at hpieces
  rw [lines, hsplit, List.dropLast_concat, List.getLast?_concat, Option.getD_some]
  split
  · rw [List.append_nil, List.length_map]
    omega
  · next hfull =>
    have hpos : 0 < last.length := List.length_pos_iff.mpr fun h => hfull (by rw [h]; rfl)
    have hbytes := length_le_bytes last
    rw [pieceBytes_append, List.length_append, List.length_map, List.length_singleton]
    omega

end Lines

end TransportDeck.Text
