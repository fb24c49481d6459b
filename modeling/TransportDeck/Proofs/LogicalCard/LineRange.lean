import TransportDeck.LogicalCard

namespace TransportDeck

structure Span.Within (n : Nat) (s : Span) : Prop where
  positive : 1 ≤ s.first
  ordered : s.first ≤ s.last
  inside : s.last ≤ n

variable {n : Nat}

theorem Span.within_line {k : Nat} (hpos : 1 ≤ k) (hle : k ≤ n) : (Span.line k).Within n where
  positive := hpos
  ordered := Nat.le_max_left k k
  inside := Nat.max_le.mpr ⟨hle, hle⟩

theorem Span.Within.extendTo {s : Span} (h : s.Within n) {k : Nat} (hle : k ≤ n) :
    (s.extendTo k).Within n where
  positive := h.positive
  ordered := Nat.le_trans h.ordered (Nat.le_max_left s.last k)
  inside := Nat.max_le.mpr ⟨h.inside, hle⟩

/-- What is written on a line bears its number. -/
theorem PhysicalLine.number_of_cardLine? {line : PhysicalLine} {content : ContentLine}
    (h : line.cardLine? = some (.content content)) : content.number = line.number := by
  unfold cardLine? at h
  split at h
  · cases h
  · dsimp only at h
    split at h
    · obtain ⟨comment, _, hremark⟩ := Option.map_eq_some_iff.mp h
      cases hremark
    · cases h
      rfl

namespace LogicalCard

/-- Each line that goes on with the open card leaves it within the text, and so do the lines that start
the cards after it. -/
theorem within_gather (card : LogicalCard) (continued : Bool) {lines : List CardLine}
    (hcard : card.span.Within n)
    (hlines : ∀ line, .content line ∈ lines → 1 ≤ line.number ∧ line.number ≤ n) :
    ∀ c ∈ gather card continued lines, c.span.Within n := by
  -- the invariant is that the open card is within the text
  induction lines generalizing card continued with
  | nil =>
    intro c hc
    rw [List.mem_singleton.mp hc]
    exact hcard
  | cons first rest ih =>
    have hrest : ∀ line, .content line ∈ rest → 1 ≤ line.number ∧ line.number ≤ n :=
      fun line hline => hlines line (List.mem_cons_of_mem _ hline)
    cases first with
    | remark number comment => exact ih (card.addRemark number comment) continued hcard hrest
    | content line =>
      obtain ⟨hpos, hle⟩ := hlines line List.mem_cons_self
      rw [gather]
      split
      · exact ih (card.extend line) line.continued (hcard.extendTo hle) hrest
      · intro c hc
        rcases List.mem_cons.mp hc with rfl | hc
        · exact hcard
        · exact ih (ofLine line) line.continued (Span.within_line hpos hle) hrest c hc

theorem within_ofCardLines {lines : List CardLine}
    (hlines : ∀ line, .content line ∈ lines → 1 ≤ line.number ∧ line.number ≤ n) :
    ∀ c ∈ ofCardLines lines, c.span.Within n := by
  induction lines with
  | nil => exact fun c hc => absurd hc List.not_mem_nil
  | cons first rest ih =>
    have hrest : ∀ line, .content line ∈ rest → 1 ≤ line.number ∧ line.number ≤ n :=
      fun line hline => hlines line (List.mem_cons_of_mem _ hline)
    cases first with
    | remark number comment => exact ih hrest
    | content line =>
      obtain ⟨hpos, hle⟩ := hlines line List.mem_cons_self
      exact within_gather (ofLine line) line.continued (Span.within_line hpos hle) hrest

/-- Cards that are made of the first `n` lines stand within them. -/
theorem within_ofLines {lines : List PhysicalLine}
    (hlines : ∀ line ∈ lines, 1 ≤ line.number ∧ line.number ≤ n) :
    ∀ card ∈ ofLines lines, card.span.Within n := by
  apply within_ofCardLines
  intro content hcontent
  obtain ⟨line, hline, hcard⟩ := List.mem_filterMap.mp hcontent
  rw [PhysicalLine.number_of_cardLine? hcard]
  exact hlines line hline

end LogicalCard

end TransportDeck
