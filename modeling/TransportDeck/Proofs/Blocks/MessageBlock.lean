import TransportDeck.Proofs.Blocks.BlankRuns

namespace TransportDeck

namespace Blocks

def OpensMessages (line : List Char) : Prop :=
  ∃ blanks word text, line = blanks ++ (word ++ text) ∧ (∀ c ∈ blanks, Text.isBlank c = true) ∧
    Text.lower word = messageKeyword

inductive AfterMessages : List PhysicalLine → List PhysicalLine → Prop
  | absent {lines : List PhysicalLine} : (∀ first ∈ lines.head?, ¬ OpensMessages first.text) →
      AfterMessages lines lines
  | closed {first blank : PhysicalLine} {block rest : List PhysicalLine} :
      OpensMessages first.text → Unbroken block → blank.isBlank = true →
      AfterMessages (first :: (block ++ blank :: rest)) rest
  | unclosed {first : PhysicalLine} {block : List PhysicalLine} :
      OpensMessages first.text → Unbroken block → AfterMessages (first :: block) []

theorem toLower_of_isBlank {c : Char} (h : Text.isBlank c = true) : c.toLower = c := by
  have hcapital : ¬ (65 ≤ c.toNat ∧ c.toNat ≤ 90) := by
    simp only [Text.isBlank, Bool.or_eq_true, Bool.and_eq_true, decide_eq_true_eq, beq_iff_eq] at h
    omega
  unfold Char.toLower
  rw [dif_neg]
  rintro ⟨hlow, hhigh⟩
  exact hcapital ⟨UInt32.le_iff_toNat_le.mp hlow, UInt32.le_iff_toNat_le.mp hhigh⟩

theorem isSome_messageText? {line : List Char} :
    (messageText? line).isSome = true ↔ OpensMessages line := by
  have hsome : (messageText? line).isSome = true ↔
      Text.lower ((Text.trimStart line).take messageKeyword.length) = messageKeyword := by
    unfold messageText?
    dsimp only
    split
    · next hkeyword => simp [hkeyword]
    · next hother => simp [hother]
  rw [hsome]
  constructor
  · intro hkeyword
    refine ⟨line.takeWhile Text.isBlank, (Text.trimStart line).take messageKeyword.length,
      (Text.trimStart line).drop messageKeyword.length, ?_, fun c => List.mem_takeWhile_imp, hkeyword⟩
    rw [List.take_append_drop, Text.trimStart, List.takeWhile_append_dropWhile]
  · rintro ⟨blanks, word, text, rfl, hblanks, hword⟩
    have hlength : word.length = messageKeyword.length := by
      rw [← hword, Text.lower, List.length_map]
    have hfirst : ∀ c ∈ (word ++ text).head?, Text.isBlank c = false := by
      intro c hc
      cases word with
      | nil => cases hlength
      | cons first rest =>
        cases hc
        have hlower : c.toLower = 'm' := (List.cons.inj hword).1
        apply Bool.eq_false_iff.mpr
        intro hblank
        rw [toLower_of_isBlank hblank] at hlower
        subst hlower
        exact absurd hblank (by decide)
    rw [Text.trimStart, (takeWhile_dropWhile_append hblanks hfirst).2, ← hlength, List.take_left]
    exact hword

theorem messageLength_of_opens {first : PhysicalLine} (h : OpensMessages first.text)
    (tail : List PhysicalLine) : messageLength ((first :: tail).map (·.text)) =
      (tail.takeWhile fun l => !PhysicalLine.isBlank l).length + 2 := by
  change (if (messageText? first.text).isSome then
    ((tail.map (·.text)).takeWhile fun l => !Text.isBlankText l).length + 2 else 0) = _
  rw [if_pos (isSome_messageText?.mpr h), List.takeWhile_map, List.length_map]
  rfl

theorem messageLength_of_not_opens {lines : List PhysicalLine}
    (h : ∀ first ∈ lines.head?, ¬ OpensMessages first.text) :
    messageLength (lines.map (·.text)) = 0 := by
  cases lines with
  | nil => rfl
  | cons first tail => exact if_neg (mt isSome_messageText?.mp (h first rfl))

theorem AfterMessages.eq_drop {lines rest : List PhysicalLine} (h : AfterMessages lines rest) :
    rest = lines.drop (messageLength (lines.map (·.text))) := by
  cases h with
  | absent hfirst => rw [messageLength_of_not_opens hfirst, List.drop_zero]
  | @closed first blank block rest hopens hblock hblank =>
    have hstop : ∀ l ∈ (blank :: rest).head?, l.isBlank = true := by
      intro l hl
      cases hl
      exact hblank
    have hdrop : rest = (block ++ blank :: rest).drop (block.length + 1) := by
      rw [← List.drop_drop, List.drop_left]
      rfl
    rw [messageLength_of_opens hopens, (hblock.takeWhile_dropWhile_append hstop).1]
    exact hdrop
  | @unclosed first block hopens hblock =>
    rw [messageLength_of_opens hopens, hblock.takeWhile_eq]
    exact (List.drop_eq_nil_of_le (Nat.le_succ _)).symm

theorem exists_afterMessages (lines : List PhysicalLine) : ∃ rest, AfterMessages lines rest := by
  cases lines with
  | nil => exact ⟨[], .absent fun first hfirst => by cases hfirst⟩
  | cons first tail =>
    by_cases hopens : OpensMessages first.text
    · rcases unbroken_or_exists_firstRun tail with hblock | ⟨block, run, after, hrun⟩
      · exact ⟨[], .unclosed hopens hblock⟩
      · obtain ⟨blank, more, hcons⟩ := List.exists_cons_of_ne_nil hrun.ne_nil
        have hblank : blank.isBlank = true := hrun.blank blank (hcons ▸ List.mem_cons_self)
        refine ⟨more ++ after, ?_⟩
        rw [hrun.joined, hcons, List.cons_append]
        exact .closed hopens hrun.unbroken hblank
    · exact ⟨first :: tail, .absent fun line hline => by cases hline; exact hopens⟩

end Blocks

end TransportDeck
