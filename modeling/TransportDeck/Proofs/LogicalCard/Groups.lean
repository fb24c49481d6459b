import Mathlib.Data.List.Forall2
import Mathlib.Data.List.SplitBy
import TransportDeck.Proofs.LogicalCard.Content

/-!
The lines of a card. The content lines of a block fall into groups: a line opens a new group unless it
is indented or the content line before it ends in an ampersand. Each group is one card, which holds the
bodies of its lines in order, and no inline comment is lost after the first content line.
-/

namespace TransportDeck

namespace PhysicalLine

instance : DecidablePred Contentless := fun line =>
  inferInstanceAs (Decidable (Text.isComment line.text = true ∨
    Text.isBlankText (Text.splitComment line.text).1 = true))

def content (line : PhysicalLine) : List Char :=
  Text.trimEnd (Text.splitComment line.text).1

def EndsInAmpersand (line : PhysicalLine) : Prop :=
  line.content.getLast? = some '&'

def Indented (line : PhysicalLine) : Prop :=
  continuationIndent ≤ Text.indentWidth line.text

instance : DecidablePred EndsInAmpersand := fun line =>
  inferInstanceAs (Decidable (line.content.getLast? = some '&'))

instance : DecidablePred Indented := fun line =>
  inferInstanceAs (Decidable (continuationIndent ≤ Text.indentWidth line.text))

def body (line : PhysicalLine) : List Char :=
  Text.trim (if line.EndsInAmpersand then line.content.dropLast else line.content)

def comment? (line : PhysicalLine) : Option (Nat × String) :=
  if Text.isComment line.text then none
  else (Text.splitComment line.text).2.map fun c => (line.number, String.ofList (Text.trim c))

/-- Whether a content line goes on with the card of the content line before it. -/
def goesOn (previous line : PhysicalLine) : Bool :=
  previous.EndsInAmpersand ∨ line.Indented

end PhysicalLine

def contentLines (lines : List PhysicalLine) : List PhysicalLine :=
  lines.filter fun line => ¬ line.Contentless

/-- Content lines fall into groups, and a line stands in the group of the one before it exactly if it
goes on with its card. -/
structure CardGroups (lines : List PhysicalLine) (groups : List (List PhysicalLine)) : Prop where
  flatten : groups.flatten = contentLines lines
  nonempty : [] ∉ groups
  goes_on : ∀ group ∈ groups, group.IsChain fun previous line => previous.goesOn line = true
  starts : groups.IsChain fun group next => ∃ (h : group ≠ []) (h' : next ≠ []),
    (group.getLast h).goesOn (next.head h') = false

def bodies (group : List PhysicalLine) : List String :=
  ((group.map PhysicalLine.body).filter (· ≠ [])).map String.ofList

/-- A card says what the lines of its group say, and reaches from the first of them to the last, where
their numbers do not fall. -/
structure CardOf (group : List PhysicalLine) (card : LogicalCard) : Prop where
  text : card.text = Text.joined " " (bodies group)
  first : group.head?.map PhysicalLine.number = some card.span.first
  last : (group.map PhysicalLine.number).Pairwise (· ≤ ·) →
    group.getLast?.map PhysicalLine.number = some card.span.last

namespace PhysicalLine

variable {line : PhysicalLine}

def contribution (line : PhysicalLine) : ContentLine where
  number := line.number
  body := line.body
  continued := line.EndsInAmpersand
  indented := line.Indented
  comment := line.comment?.map (·.2)

theorem cardLine?_contentless (h : line.Contentless) :
    line.cardLine? = line.comment?.map fun c => .remark c.1 c.2 := by
  unfold cardLine? comment?
  rcases h with hcomment | hblank
  · simp [hcomment]
  · by_cases hcomment : Text.isComment line.text = true
    · simp [hcomment]
    · simp [hcomment, hblank, Function.comp_def]

theorem cardLine?_content (h : ¬ line.Contentless) :
    line.cardLine? = some (.content line.contribution) := by
  obtain ⟨hcomment, hblank⟩ := not_or.mp h
  have hsplit : splitAmpersand line.content =
      (if line.EndsInAmpersand then line.content.dropLast else line.content,
        decide line.EndsInAmpersand) := by
    unfold splitAmpersand
    by_cases hend : line.content.getLast? = some '&'
    · simp [EndsInAmpersand, hend]
    · simp [EndsInAmpersand, hend]
  have hline : line.cardLine? = some (.content ⟨line.number,
      Text.trim (splitAmpersand line.content).1, (splitAmpersand line.content).2,
      decide line.Indented, (Text.splitComment line.text).2.map fun c => String.ofList (Text.trim c)⟩) := by
    simp only [cardLine?, hcomment, hblank]
    rfl
  rw [hline, hsplit]
  simp [contribution, comment?, body, hcomment, Function.comp_def]

theorem lineComments_contribution (line : PhysicalLine) :
    LogicalCard.lineComments line.contribution = line.comment?.toList := by
  unfold LogicalCard.lineComments contribution comment?
  split
  · rfl
  · cases (Text.splitComment line.text).2 <;> rfl

end PhysicalLine

section ContentLines

variable {line : PhysicalLine}

theorem contentLines_cons_contentless (h : line.Contentless) (rest : List PhysicalLine) :
    contentLines (line :: rest) = contentLines rest :=
  List.filter_cons_of_neg (by simpa using h)

theorem contentLines_cons_content (h : ¬ line.Contentless) (rest : List PhysicalLine) :
    contentLines (line :: rest) = line :: contentLines rest :=
  List.filter_cons_of_pos (by simpa using h)

end ContentLines

theorem bodies_snoc (group : List PhysicalLine) (line : PhysicalLine) :
    bodies (group ++ [line]) =
      bodies group ++ if line.body = [] then [] else [String.ofList line.body] := by
  simp only [bodies, List.map_append, List.filter_append, List.map_cons, List.map_nil]
  split
  · next hempty => simp [hempty]
  · next hbody => simp [hbody]

theorem joined_bodies_eq_empty_iff {group : List PhysicalLine} :
    Text.joined " " (bodies group) = "" ↔ bodies group = [] := by
  constructor
  · intro hempty
    cases hbodies : bodies group with
    | nil => rfl
    | cons text rest =>
      have hmem : text ∈ bodies group := hbodies ▸ List.mem_cons_self
      obtain ⟨body, hbody, rfl⟩ := List.mem_map.mp hmem
      have hne : body ≠ [] := of_decide_eq_true (List.mem_filter.mp hbody).2
      have hlist := congrArg String.toList hempty
      rw [hbodies, Text.joined, String.toList_intercalate] at hlist
      cases rest with
      | nil => simp [hne] at hlist
      | cons next rest => simp [hne] at hlist
  · intro hnil
    rw [hnil]
    rfl

namespace LogicalCard

theorem appendBody_joined (group : List PhysicalLine) (line : PhysicalLine) :
    appendBody (Text.joined " " (bodies group)) line.body =
      Text.joined " " (bodies (group ++ [line])) := by
  rw [bodies_snoc, appendBody]
  by_cases hbody : line.body = []
  · simp [hbody]
  · by_cases hgroup : bodies group = []
    · simp [hbody, hgroup, Text.joined]
    · have htext : Text.joined " " (bodies group) ≠ "" := mt joined_bodies_eq_empty_iff.mp hgroup
      simp only [List.isEmpty_iff, hbody, String.isEmpty_iff, htext, if_false]
      rw [Text.joined, Text.joined, String.intercalate_append_of_ne_nil hgroup (List.cons_ne_nil _ _),
        String.intercalate_singleton]

end LogicalCard

open LogicalCard

section Gathering

variable {group : List PhysicalLine} {card : LogicalCard}

theorem cardOf_ofLine (line : PhysicalLine) : CardOf [line] (ofLine line.contribution) where
  text := by
    have htext : (ofLine line.contribution).text = String.ofList line.body := rfl
    rw [htext, ← List.nil_append [line], bodies_snoc]
    by_cases hbody : line.body = []
    · simp [hbody, bodies, Text.joined]
    · simp [hbody, bodies, Text.joined]
  first := rfl
  last _ := congrArg some (Nat.max_self _).symm

theorem CardOf.extend (h : CardOf group card) (hne : group ≠ []) (line : PhysicalLine) :
    CardOf (group ++ [line]) (card.extend line.contribution) where
  text := by
    have htext : (card.extend line.contribution).text = appendBody card.text line.body := rfl
    rw [htext, h.text, appendBody_joined]
  first := by
    rw [List.head?_append_of_ne_nil _ hne]
    exact h.first
  last hrising := by
    rw [List.map_append, List.pairwise_append] at hrising
    obtain ⟨hgroup, _, hline⟩ := hrising
    have hlast := h.last hgroup
    obtain ⟨last, hmem, hnumber⟩ := Option.map_eq_some_iff.mp hlast
    have hle : last.number ≤ line.number :=
      hline _ (List.mem_map_of_mem (List.mem_of_getLast? hmem)) _ (List.mem_singleton_self _)
    have hspan : (card.extend line.contribution).span.last = max card.span.last line.number := rfl
    rw [hspan, ← hnumber, Nat.max_eq_right hle, List.getLast?_concat]
    rfl

theorem CardOf.addRemark (h : CardOf group card) (number : Nat) (comment : String) :
    CardOf group (card.addRemark number comment) :=
  ⟨h.text, h.first, h.last⟩

/-- With a group of lines in an open card, the lines after it make up its rest and the cards to come. -/
theorem cardOf_gather {group : List PhysicalLine} {card : LogicalCard} (hne : group ≠ [])
    (hgroup : group.IsChain fun previous line => previous.goesOn line = true)
    (hcard : CardOf group card) (rest : List PhysicalLine) :
    List.Forall₂ CardOf ((group ++ contentLines rest).splitBy PhysicalLine.goesOn)
      (gather card (group.getLast hne).EndsInAmpersand (rest.filterMap PhysicalLine.cardLine?)) := by
  induction rest generalizing group card with
  | nil =>
    rw [contentLines, List.filter_nil, List.append_nil, List.splitBy_of_isChain hne hgroup]
    exact .cons hcard .nil
  | cons line rest ih =>
    by_cases hcontent : line.Contentless
    · rw [contentLines_cons_contentless hcontent, List.filterMap_cons,
        PhysicalLine.cardLine?_contentless hcontent]
      cases line.comment? with
      | none => exact ih hne hgroup hcard
      | some c => exact ih hne hgroup (hcard.addRemark c.1 c.2)
    · rw [contentLines_cons_content hcontent, List.filterMap_cons,
        PhysicalLine.cardLine?_content hcontent]
      have hjoint : ∀ previous ∈ group.getLast?, ∀ more, ∀ next ∈ (line :: more).head?,
          previous.goesOn next = (group.getLast hne).goesOn line := by
        intro previous hprevious more next hnext
        rw [List.getLast?_eq_some_getLast hne] at hprevious
        cases hprevious
        cases hnext
        rfl
      -- the loop asks of its two flags what `goesOn` asks of the two lines
      have hflags : (decide (group.getLast hne).EndsInAmpersand || line.contribution.indented) =
          (group.getLast hne).goesOn line := by
        simp [PhysicalLine.goesOn, PhysicalLine.contribution]
      simp only [gather, hflags]
      cases hon : (group.getLast hne).goesOn line with
      | true =>
        have hchain : (group ++ [line]).IsChain fun previous line => previous.goesOn line = true :=
          List.isChain_append.mpr ⟨hgroup, .singleton line, fun previous hprevious next hnext =>
            (hjoint previous hprevious [] next hnext).trans hon⟩
        have hnext := ih (List.append_ne_nil_of_right_ne_nil _ (List.cons_ne_nil line [])) hchain
          (hcard.extend hne line)
        rw [List.append_assoc, List.getLast_concat] at hnext
        exact hnext
      | false =>
        rw [List.splitBy_append fun previous hprevious next hnext =>
          (hjoint previous hprevious _ next hnext).trans hon, List.splitBy_of_isChain hne hgroup]
        exact .cons hcard (ih (List.cons_ne_nil line []) (.singleton line) (cardOf_ofLine line))

theorem comments_gather (card : LogicalCard) (continued : Bool) (rest : List PhysicalLine) :
    (gather card continued (rest.filterMap PhysicalLine.cardLine?)).flatMap (·.comments) =
      card.comments ++ rest.filterMap PhysicalLine.comment? := by
  induction rest generalizing card continued with
  | nil => simp [gather]
  | cons line rest ih =>
    rw [List.filterMap_cons, List.filterMap_cons]
    by_cases hcontent : line.Contentless
    · rw [PhysicalLine.cardLine?_contentless hcontent]
      cases line.comment? with
      | none => exact ih card continued
      | some c =>
        have hnext := ih (card.addRemark c.1 c.2) continued
        simpa [gather, addRemark] using hnext
    · have hcomments := PhysicalLine.lineComments_contribution line
      rw [PhysicalLine.cardLine?_content hcontent]
      simp only [gather]
      split
      · have hextend : (card.extend line.contribution).comments =
            card.comments ++ line.comment?.toList := by
          rw [← hcomments]
          rfl
        rw [ih, hextend]
        cases line.comment? <;> simp
      · have hopen : (ofLine line.contribution).comments = line.comment?.toList := hcomments
        rw [List.flatMap_cons, ih, hopen]
        cases line.comment? <;> simp

/-- The first content line opens the first card. -/
theorem ofLines_cons (line : PhysicalLine) (rest : List PhysicalLine) :
    ofLines (line :: rest) =
      if line.Contentless then ofLines rest
      else gather (ofLine line.contribution) line.EndsInAmpersand
        (rest.filterMap PhysicalLine.cardLine?) := by
  rw [ofLines, List.filterMap_cons]
  by_cases hcontent : line.Contentless
  · rw [PhysicalLine.cardLine?_contentless hcontent, if_pos hcontent]
    cases line.comment? with
    | none => rfl
    | some c => rfl
  · rw [PhysicalLine.cardLine?_content hcontent, if_neg hcontent]
    rfl

theorem cardOf_ofLines (lines : List PhysicalLine) :
    List.Forall₂ CardOf ((contentLines lines).splitBy PhysicalLine.goesOn) (ofLines lines) := by
  induction lines with
  | nil => exact .nil
  | cons line rest ih =>
    rw [ofLines_cons]
    split
    · next hcontent =>
      rw [contentLines_cons_contentless hcontent]
      exact ih
    · next hcontent =>
      rw [contentLines_cons_content hcontent]
      exact cardOf_gather (List.cons_ne_nil line []) (.singleton line) (cardOf_ofLine line) rest

theorem comments_ofLines (lines : List PhysicalLine) :
    (ofLines lines).flatMap (·.comments) =
      (lines.dropWhile fun line => line.Contentless).filterMap PhysicalLine.comment? := by
  induction lines with
  | nil => rfl
  | cons line rest ih =>
    rw [ofLines_cons]
    split
    · next hcontent =>
      rw [List.dropWhile_cons_of_pos (by simpa using hcontent), ih]
    · next hcontent =>
      have hopen : (ofLine line.contribution).comments = line.comment?.toList :=
        PhysicalLine.lineComments_contribution line
      rw [List.dropWhile_cons_of_neg (by simpa using hcontent), comments_gather, hopen,
        List.filterMap_cons]
      cases line.comment? <;> rfl

end Gathering

theorem cardGroups_splitBy (lines : List PhysicalLine) :
    CardGroups lines ((contentLines lines).splitBy PhysicalLine.goesOn) where
  flatten := List.flatten_splitBy _ _
  nonempty := List.nil_notMem_splitBy _ _
  goes_on _ h := List.isChain_of_mem_splitBy h
  starts := List.isChain_getLast_head_splitBy _ _

end TransportDeck
