import TransportDeck.Proofs.LogicalCard.Groups
import TransportDeck.Proofs.Text.InlineComments
import TransportDeck.Proofs.Text.Trimming

/-!
The two ways to continue a card. Whether a line goes on with a card because of an ampersand before it or
because it is indented makes no difference: lines that say the same, and go on at the same places, give
the same cards.
-/

namespace TransportDeck

/-- Two lines with one number, one body and one inline comment. -/
structure PhysicalLine.SaysSame (line line' : PhysicalLine) : Prop where
  number : line.number = line'.number
  contentless : line.Contentless ↔ line'.Contentless
  body : line.body = line'.body
  comment : line.comment? = line'.comment?

def joints (content : List PhysicalLine) : List Bool :=
  content.zipWith PhysicalLine.goesOn content.tail

/-- Lines written anew that keep what they say and where a card goes on, by whatever means. -/
structure Restyled (lines lines' : List PhysicalLine) : Prop where
  same : List.Forall₂ PhysicalLine.SaysSame lines lines'
  joints : joints (contentLines lines) = joints (contentLines lines')

namespace LogicalCard

open PhysicalLine

variable {line line' : PhysicalLine}

theorem ofLine_saysSame (h : line.SaysSame line') :
    ofLine line.contribution = ofLine line'.contribution := by
  simp [ofLine, lineComments, contribution, h.number, h.body, h.comment]

theorem extend_saysSame (h : line.SaysSame line') (card : LogicalCard) :
    card.extend line.contribution = card.extend line'.contribution := by
  simp [extend, lineComments, contribution, h.number, h.body, h.comment]

/-- From one content line on, the flags matter through `goesOn` only. -/
theorem gather_restyled {rest rest' : List PhysicalLine} (hsame : List.Forall₂ SaysSame rest rest')
    {previous previous' : PhysicalLine}
    (hjoints : joints (previous :: contentLines rest) = joints (previous' :: contentLines rest'))
    (card : LogicalCard) :
    gather card previous.EndsInAmpersand (rest.filterMap cardLine?) =
      gather card previous'.EndsInAmpersand (rest'.filterMap cardLine?) := by
  induction hsame generalizing previous previous' card with
  | nil => rfl
  | @cons line line' rest rest' h hrest ih =>
    rw [List.filterMap_cons, List.filterMap_cons]
    by_cases hcontent : line.Contentless
    · have hcontent' : line'.Contentless := h.contentless.mp hcontent
      rw [contentLines_cons_contentless hcontent, contentLines_cons_contentless hcontent'] at hjoints
      rw [cardLine?_contentless hcontent, cardLine?_contentless hcontent', h.comment]
      cases line'.comment? with
      | none => exact ih hjoints card
      | some c => exact ih hjoints (card.addRemark c.1 c.2)
    · have hcontent' : ¬ line'.Contentless := mt h.contentless.mpr hcontent
      rw [contentLines_cons_content hcontent, contentLines_cons_content hcontent'] at hjoints
      rw [cardLine?_content hcontent, cardLine?_content hcontent']
      obtain ⟨hhere, hlater⟩ := List.cons.inj hjoints
      have hflags : (decide previous.EndsInAmpersand || line.contribution.indented) =
          (decide previous'.EndsInAmpersand || line'.contribution.indented) := by
        simpa [goesOn, contribution] using hhere
      simp only [gather, hflags, ofLine_saysSame h, extend_saysSame h]
      split
      · exact ih hlater (card.extend line'.contribution)
      · rw [List.cons.injEq]
        exact ⟨rfl, ih hlater (ofLine line'.contribution)⟩

theorem ofLines_restyled {lines lines' : List PhysicalLine} (h : Restyled lines lines') :
    ofLines lines = ofLines lines' := by
  obtain ⟨hsame, hjoints⟩ := h
  induction hsame with
  | nil => rfl
  | @cons line line' rest rest' h hrest ih =>
    rw [ofLines_cons, ofLines_cons]
    by_cases hcontent : line.Contentless
    · have hcontent' : line'.Contentless := h.contentless.mp hcontent
      rw [contentLines_cons_contentless hcontent, contentLines_cons_contentless hcontent'] at hjoints
      rw [if_pos hcontent, if_pos hcontent', ih hjoints]
    · have hcontent' : ¬ line'.Contentless := mt h.contentless.mpr hcontent
      rw [contentLines_cons_content hcontent, contentLines_cons_content hcontent'] at hjoints
      rw [if_neg hcontent, if_neg hcontent', ofLine_saysSame h]
      exact gather_restyled hrest hjoints _

end LogicalCard

namespace PhysicalLine

def withAmpersand (line : PhysicalLine) : PhysicalLine :=
  { line with text := line.text ++ [' ', '&'] }

def moved (line : PhysicalLine) : PhysicalLine :=
  { line with text := List.replicate continuationIndent ' ' ++ line.text }

variable {line : PhysicalLine}

section WithAmpersand

variable (hcontent : ¬ line.Contentless) (huncut : (Text.splitComment line.text).2 = none)

include huncut

theorem splitComment_withAmpersand :
    Text.splitComment line.withAmpersand.text = (line.text ++ [' ', '&'], none) :=
  Text.cutComment_append_of_uncut (by decide) huncut

theorem content_withAmpersand : line.withAmpersand.content = line.text ++ [' ', '&'] := by
  rw [content, splitComment_withAmpersand huncut, Text.trimEnd_append_of_not_blank (by decide)]
  rfl

theorem endsInAmpersand_withAmpersand : line.withAmpersand.EndsInAmpersand := by
  rw [EndsInAmpersand, content_withAmpersand huncut]
  simp

include hcontent

theorem text_not_blank : Text.isBlankText line.text = false := by
  simpa [Text.splitComment_of_uncut huncut] using (not_or.mp hcontent).2

theorem indented_withAmpersand : line.withAmpersand.Indented ↔ line.Indented := by
  have hindent : Text.indentWidth line.withAmpersand.text = Text.indentWidth line.text :=
    Text.indentFrom_append (text_not_blank hcontent huncut) 0 [' ', '&']
  rw [Indented, Indented, hindent]

theorem contentless_withAmpersand : ¬ line.withAmpersand.Contentless := by
  have hcomment : Text.isComment line.withAmpersand.text = Text.isComment line.text :=
    Text.isComment_append (text_not_blank hcontent huncut) rfl
  rw [Contentless, hcomment, splitComment_withAmpersand huncut]
  rintro (h | h)
  · exact hcontent (.inl h)
  · simp [Text.isBlankText, Text.isBlank] at h

/-- An ampersand put after a content line that had none says nothing more. -/
theorem saysSame_withAmpersand (hend : ¬ line.EndsInAmpersand) :
    line.withAmpersand.SaysSame line where
  number := rfl
  contentless := iff_of_false (contentless_withAmpersand hcontent huncut) hcontent
  body := by
    have hdrop : (line.text ++ [' ', '&']).dropLast = line.text ++ [' '] := by simp
    rw [body, body, if_pos (endsInAmpersand_withAmpersand huncut), if_neg hend,
      content_withAmpersand huncut, content, Text.splitComment_of_uncut huncut, hdrop, Text.trim_trimEnd]
    exact Text.trim_append_of_blank (List.forall_mem_singleton.mpr rfl) line.text
  comment := by
    simp [comment?, splitComment_withAmpersand huncut, huncut]

end WithAmpersand

theorem splitComment_moved (line : PhysicalLine) :
    Text.splitComment line.moved.text =
      (List.replicate continuationIndent ' ' ++ (Text.splitComment line.text).1,
        (Text.splitComment line.text).2) :=
  Text.splitComment_replicate_append continuationIndent line.text

theorem spaces_blank (n : Nat) : ∀ c ∈ List.replicate n ' ', Text.isBlank c = true := by
  intro c hc
  rw [List.eq_of_mem_replicate hc]
  decide

theorem isComment_moved (line : PhysicalLine) :
    Text.isComment line.moved.text = Text.isComment line.text := by
  rw [Text.isComment, Text.isComment, moved, Text.trimStart_append_of_blank (spaces_blank _)]

theorem indented_moved (line : PhysicalLine) : line.moved.Indented :=
  Text.le_indentWidth_replicate_append continuationIndent line.text

section Moved

variable (hcontent : ¬ line.Contentless)

include hcontent

theorem content_moved :
    line.moved.content = List.replicate continuationIndent ' ' ++ line.content := by
  have hblank : Text.isBlankText (Text.splitComment line.text).1 = false := by
    simpa using (not_or.mp hcontent).2
  rw [content, splitComment_moved, Text.trimEnd_append_of_not_blank hblank]
  rfl

theorem content_ne_nil : line.content ≠ [] := by
  intro hnil
  obtain ⟨blanks, hblanks, hsplit⟩ := Text.exists_blanks_trimEnd (Text.splitComment line.text).1
  have hall : (Text.splitComment line.text).1 = blanks := by
    rw [← hsplit]
    exact congrArg (· ++ blanks) hnil
  exact hcontent (.inr (by rw [hall]; exact List.all_eq_true.mpr hblanks))

theorem endsInAmpersand_moved : line.moved.EndsInAmpersand ↔ line.EndsInAmpersand := by
  rw [EndsInAmpersand, EndsInAmpersand, content_moved hcontent,
    List.getLast?_append_of_ne_nil _ (content_ne_nil hcontent)]

/-- A content line that is set off says nothing else. -/
theorem saysSame_moved : line.SaysSame line.moved where
  number := rfl
  contentless := by
    rw [Contentless, Contentless, isComment_moved, splitComment_moved]
    simp [Text.isBlankText, Text.isBlank]
  body := by
    have htrim (cs : List Char) :
        Text.trim (List.replicate continuationIndent ' ' ++ cs) = Text.trim cs := by
      rw [Text.trim, Text.trimStart_append_of_blank (spaces_blank _)]
      rfl
    rw [body, body, content_moved hcontent]
    by_cases hend : line.EndsInAmpersand
    · rw [if_pos hend, if_pos ((endsInAmpersand_moved hcontent).mpr hend),
        List.dropLast_append_of_ne_nil (content_ne_nil hcontent), htrim]
    · rw [if_neg hend, if_neg (mt (endsInAmpersand_moved hcontent).mp hend), htrim]
  comment := by
    rw [comment?, comment?, isComment_moved, splitComment_moved]
    rfl

end Moved

end PhysicalLine

section Joints

open PhysicalLine

variable {line line' : PhysicalLine}

theorem joints_append (front : List PhysicalLine) (line : PhysicalLine) (rest : List PhysicalLine) :
    joints (front ++ line :: rest) = joints (front ++ [line]) ++ joints (line :: rest) := by
  induction front with
  | nil => rfl
  | cons first front ih =>
    cases front with
    | nil => rfl
    | cons second front => simpa [joints] using ih

/-- As the last of some lines, only the indent of a line counts. -/
theorem joints_snoc (h : line.Indented ↔ line'.Indented) (front : List PhysicalLine) :
    joints (front ++ [line]) = joints (front ++ [line']) := by
  induction front with
  | nil => rfl
  | cons first front ih =>
    cases front with
    | nil => simp [joints, goesOn, h]
    | cons second front => simpa [joints] using ih

/-- As the first of some lines, only its ampersand counts. -/
theorem joints_cons (h : line.EndsInAmpersand ↔ line'.EndsInAmpersand) (rest : List PhysicalLine) :
    joints (line :: rest) = joints (line' :: rest) := by
  cases rest with
  | nil => rfl
  | cons next rest => simp [joints, goesOn, h]

end Joints

theorem PhysicalLine.SaysSame.refl (line : PhysicalLine) : line.SaysSame line :=
  ⟨rfl, .rfl, rfl, rfl⟩

/-- An ampersand after a line does what an indent of the next content line does. -/
theorem restyled_ampersand_indent {first next : PhysicalLine} {between : List PhysicalLine}
    (hfirst : ¬ first.Contentless) (huncut : (Text.splitComment first.text).2 = none)
    (hend : ¬ first.EndsInAmpersand) (hbetween : ∀ line ∈ between, line.Contentless)
    (hnext : ¬ next.Contentless) (before after : List PhysicalLine) :
    Restyled (before ++ first.withAmpersand :: (between ++ next :: after))
      (before ++ first :: (between ++ next.moved :: after)) where
  same := by
    have hsame (lines : List PhysicalLine) : List.Forall₂ PhysicalLine.SaysSame lines lines :=
      List.forall₂_same.mpr fun line _ => .refl line
    have hrest : List.Forall₂ PhysicalLine.SaysSame (between ++ next :: after)
        (between ++ next.moved :: after) :=
      List.rel_append (hsame between) (.cons (PhysicalLine.saysSame_moved hnext) (hsame after))
    exact List.rel_append (hsame before)
      (.cons (PhysicalLine.saysSame_withAmpersand hfirst huncut hend) hrest)
  joints := by
    have hmoved : ¬ next.moved.Contentless :=
      mt (PhysicalLine.saysSame_moved hnext).contentless.mpr hnext
    have hnone : contentLines between = [] :=
      List.filter_eq_nil_iff.mpr fun line hline => by simpa using hbetween line hline
    have happend (lines lines' : List PhysicalLine) :
        contentLines (lines ++ lines') = contentLines lines ++ contentLines lines' :=
      List.filter_append ..
    rw [happend, happend,
      contentLines_cons_content (PhysicalLine.contentless_withAmpersand hfirst huncut),
      contentLines_cons_content hfirst, happend, happend, hnone, contentLines_cons_content hnext,
      contentLines_cons_content hmoved, joints_append, joints_append (contentLines before) first,
      joints_snoc (PhysicalLine.indented_withAmpersand hfirst huncut)]
    have hon : first.withAmpersand.goesOn next = first.goesOn next.moved := by
      simp [PhysicalLine.goesOn, PhysicalLine.endsInAmpersand_withAmpersand huncut,
        PhysicalLine.indented_moved next]
    have hlater : joints (next :: contentLines after) = joints (next.moved :: contentLines after) :=
      joints_cons (PhysicalLine.endsInAmpersand_moved hnext).symm _
    exact congrArg _ (congrArg₂ List.cons hon hlater)

namespace LogicalCard

/-- The cards of any lines: the content lines fall into groups, a line standing in the group of the one
before it if that ends in an ampersand or it is itself indented, and each group is one card. From the
first content line on every inline comment is kept, in order. The two ways to continue a card give the
same cards. -/
theorem cards_of_content_lines (lines : List PhysicalLine) :
    (∃ groups, CardGroups lines groups ∧ List.Forall₂ CardOf groups (ofLines lines)) ∧
    (ofLines lines).flatMap (·.comments) =
      (lines.dropWhile fun line => line.Contentless).filterMap PhysicalLine.comment? ∧
    ∀ lines', Restyled lines lines' → ofLines lines = ofLines lines' := by
  refine ⟨⟨_, cardGroups_splitBy lines, cardOf_ofLines lines⟩, comments_ofLines lines, ?_⟩
  exact fun lines' h => ofLines_restyled h

def openingLine : PhysicalLine := ⟨3, "1 1 -10.4 -1".toList⟩

def closingLine : PhysicalLine := ⟨5, "u=1 imp:n=1 $ inside".toList⟩

def twoCells (opening closing : PhysicalLine) : List PhysicalLine :=
  [⟨2, "c cells".toList⟩, opening, ⟨4, "$ fuel".toList⟩, closing, ⟨6, "2 0 1".toList⟩]

theorem cards_of_twoCells :
    Restyled (twoCells openingLine.withAmpersand closingLine)
      (twoCells openingLine closingLine.moved) ∧
    ofLines (twoCells openingLine.withAmpersand closingLine) =
      ofLines (twoCells openingLine closingLine.moved) ∧
    (∃ groups, CardGroups (twoCells openingLine closingLine.moved) groups ∧
      List.Forall₂ CardOf groups (ofLines (twoCells openingLine closingLine.moved))) ∧
    (ofLines (twoCells openingLine closingLine.moved)).map (fun card => (card.text, card.span)) =
      [("1 1 -10.4 -1 u=1 imp:n=1", ⟨3, 5⟩), ("2 0 1", ⟨6, 6⟩)] := by
  have hopening : ¬ openingLine.Contentless := by decide
  have hclosing : ¬ closingLine.Contentless := by decide
  have hbetween : ∀ line ∈ [⟨4, "$ fuel".toList⟩], PhysicalLine.Contentless line := by decide
  have hrestyled : Restyled (twoCells openingLine.withAmpersand closingLine)
      (twoCells openingLine closingLine.moved) :=
    restyled_ampersand_indent hopening (by decide) (by decide) hbetween hclosing
      [⟨2, "c cells".toList⟩] [⟨6, "2 0 1".toList⟩]
  have hstyles := (cards_of_content_lines (twoCells openingLine.withAmpersand closingLine)).2.2
  have hgroups := (cards_of_content_lines (twoCells openingLine closingLine.moved)).1
  exact ⟨hrestyled, hstyles _ hrestyled, hgroups, by decide +kernel⟩

end LogicalCard

end TransportDeck
