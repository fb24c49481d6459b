import Mathlib.Data.List.Induction
import TransportDeck.Text.Line

/-!
Inline comments. A line is cut at the first dollar sign that no quotation covers, so the content stays as
it is whatever comment follows it. A quotation ends at the next mark of its own kind, and a mark of the
other kind within it is a character like any other.
-/

namespace TransportDeck.Text

section Quotations

def IsQuoteMark (c : Char) : Prop := c = '"' ∨ c = '\''

/-- Whole quotations, with any characters but quotation marks around them. -/
inductive Closed : List Char → Prop
  | nil : Closed []
  | plain {front : List Char} {c : Char} (before : Closed front) (unmarked : ¬ IsQuoteMark c) :
    Closed (front ++ [c])
  | quoted {front inside : List Char} {mark : Char} (before : Closed front) (opens : IsQuoteMark mark)
    (inner : mark ∉ inside) : Closed (front ++ mark :: inside ++ [mark])

/-- What follows the text stands in the quotation that `mark` opened. -/
def OpenAt (mark : Char) (text : List Char) : Prop :=
  ∃ front inside, text = front ++ mark :: inside ∧ Closed front ∧ IsQuoteMark mark ∧ mark ∉ inside

def InQuotation (text : List Char) : Prop := ∃ mark, OpenAt mark text

def openQuote (quote : Option Char) (text : List Char) : Option Char :=
  text.foldl quoteAfter quote

variable {text front : List Char} {mark c : Char} {quote : Option Char}

theorem openQuote_append (quote : Option Char) (front back : List Char) :
    openQuote quote (front ++ back) = openQuote (openQuote quote front) back :=
  List.foldl_append

theorem quoteAfter_mark (h : IsQuoteMark mark) : quoteAfter none mark = some mark := if_pos h

theorem quoteAfter_plain (h : ¬ IsQuoteMark c) : quoteAfter none c = none := if_neg h

theorem quoteAfter_same (mark : Char) : quoteAfter (some mark) mark = none := if_pos rfl

theorem quoteAfter_inside (h : c ≠ mark) : quoteAfter (some mark) c = some mark := if_neg h

/-- A quotation stays open for as long as its mark does not come again. -/
theorem openQuote_quotation {inside : List Char} (hmark : IsQuoteMark mark) (h : mark ∉ inside) :
    openQuote none (mark :: inside) = some mark := by
  have hinside : openQuote (some mark) inside = some mark := by
    induction inside with
    | nil => rfl
    | cons c rest ih =>
      obtain ⟨hc, hrest⟩ := List.ne_and_not_mem_of_not_mem_cons h
      rw [openQuote, List.foldl_cons, quoteAfter_inside hc.symm]
      exact ih hrest
  rw [openQuote, List.foldl_cons, quoteAfter_mark hmark]
  exact hinside

theorem Closed.openQuote_eq (h : Closed text) : openQuote none text = none := by
  induction h with
  | nil => rfl
  | plain _ unmarked ih =>
    rw [openQuote_append, ih]
    exact quoteAfter_plain unmarked
  | quoted _ opens inner ih =>
    rw [openQuote_append, openQuote_append, ih, openQuote_quotation opens inner]
    exact quoteAfter_same _

theorem OpenAt.openQuote_eq (h : OpenAt mark text) : openQuote none text = some mark := by
  obtain ⟨front, inside, rfl, hfront, hmark, hinside⟩ := h
  rw [openQuote_append, hfront.openQuote_eq, openQuote_quotation hmark hinside]

/-- Each character keeps a text closed, opens a quotation, stays in it or ends it. -/
theorem closed_or_openAt (text : List Char) : Closed text ∨ InQuotation text := by
  -- from the end: what a character does depends on the text before it
  induction text using List.reverseRecOn with
  | nil => exact .inl .nil
  | append_singleton front c ih =>
    rcases ih with hclosed | ⟨mark, before, inside, rfl, hbefore, hmark, hinside⟩
    · by_cases hc : IsQuoteMark c
      · exact .inr ⟨c, front, [], rfl, hclosed, hc, List.not_mem_nil⟩
      · exact .inl (hclosed.plain hc)
    · by_cases hc : mark = c
      · subst hc
        exact .inl (hbefore.quoted hmark hinside)
      · refine .inr ⟨mark, before, inside ++ [c], by simp, hbefore, hmark, ?_⟩
        simp [hinside, hc]

theorem openQuote_eq_none_iff : openQuote none text = none ↔ ¬ InQuotation text := by
  constructor
  · rintro hnone ⟨mark, hopen⟩
    rw [hopen.openQuote_eq] at hnone
    cases hnone
  · intro hout
    exact ((closed_or_openAt text).resolve_right hout).openQuote_eq

end Quotations

section Cuts

variable {quote : Option Char} {line front back content comment : List Char}

/-- A line without a comment is content from its start to its end, up to any place in it. -/
theorem cutComment_front (h : (cutComment quote (front ++ back)).2 = none) :
    cutComment quote front = (front, none) := by
  induction front generalizing quote with
  | nil => rfl
  | cons c front ih =>
    rw [List.cons_append, cutComment] at h
    split at h
    · cases h
    · next hkeep => rw [cutComment, if_neg hkeep, ih h]

theorem cutComment_of_uncut (h : (cutComment quote line).2 = none) :
    cutComment quote line = (line, none) := by
  rw [← List.append_nil line] at h
  exact cutComment_front h

theorem splitComment_of_uncut (h : (splitComment line).2 = none) : splitComment line = (line, none) :=
  cutComment_of_uncut h

theorem cutComment_of_not_mem (h : '$' ∉ line) : cutComment quote line = (line, none) := by
  induction line generalizing quote with
  | nil => rfl
  | cons c rest ih =>
    obtain ⟨hc, hrest⟩ := List.ne_and_not_mem_of_not_mem_cons h
    rw [cutComment, if_neg (fun hcut => hc hcut.2.symm), ih hrest]

/-- The cut of a text goes on where content ended, with the quotation that is open there. -/
theorem cutComment_append (h : cutComment quote front = (front, none)) (back : List Char) :
    cutComment quote (front ++ back) =
      (front ++ (cutComment (openQuote quote front) back).1, (cutComment (openQuote quote front) back).2) := by
  induction front generalizing quote with
  | nil => rfl
  | cons c front ih =>
    rw [cutComment] at h
    split at h
    · cases h
    · next hkeep =>
      obtain ⟨hcontent, hnone⟩ := Prod.mk.inj h
      have hrest : cutComment (quoteAfter quote c) front = (front, none) :=
        Prod.ext (List.cons.inj hcontent).2 hnone
      rw [List.cons_append, cutComment, if_neg hkeep, ih hrest]
      rfl

/-- Only a dollar sign cuts a line, whatever quotation is open. -/
theorem cutComment_append_of_uncut {more : List Char} (hmore : '$' ∉ more)
    (h : (cutComment quote line).2 = none) : cutComment quote (line ++ more) = (line ++ more, none) := by
  rw [cutComment_append (cutComment_of_uncut h), cutComment_of_not_mem hmore]

theorem cutComment_dollar (comment : List Char) :
    cutComment none ('$' :: comment) = ([], some comment) := rfl

/-- The content before a comment has no comment of its own, and no quotation is open at its end. -/
theorem cutComment_eq_some (h : cutComment quote line = (content, some comment)) :
    content ++ '$' :: comment = line ∧ cutComment quote content = (content, none) ∧
      openQuote quote content = none := by
  fun_induction cutComment quote line generalizing content with
  | case1 quote => cases h
  | case2 quote c rest hcut =>
    cases h
    exact ⟨by rw [hcut.2]; rfl, rfl, hcut.1⟩
  | case3 quote c rest hkeep kept found heq ih =>
    cases h
    obtain ⟨hline, huncut, hopen⟩ := ih heq
    refine ⟨congrArg (c :: ·) hline, ?_, hopen⟩
    rw [cutComment, if_neg hkeep, huncut]

end Cuts

/-- A line either has no comment, and then each of its dollar signs stands in a quotation, or it is its
content, a dollar sign that stands in no quotation, and its comment. The content alone has no comment, and
with a dollar sign and any other text after it that text is the comment. -/
theorem splitComment_exact (line : List Char) :
    (splitComment line = (line, none) ∧
      ∀ front back, line = front ++ '$' :: back → InQuotation front) ∨
    ∃ content comment, splitComment line = (content, some comment) ∧
      content ++ '$' :: comment = line ∧ ¬ InQuotation content ∧
      splitComment content = (content, none) ∧
      ∀ text, splitComment (content ++ '$' :: text) = (content, some text) := by
  cases hcut : (splitComment line).2 with
  | none =>
    refine .inl ⟨splitComment_of_uncut hcut, fun front back hline => ?_⟩
    subst hline
    by_contra hout
    have hfront : cutComment none front = (front, none) := cutComment_front hcut
    have hsplit := cutComment_append hfront ('$' :: back)
    rw [openQuote_eq_none_iff.mpr hout, cutComment_dollar] at hsplit
    rw [splitComment, hsplit] at hcut
    cases hcut
  | some comment =>
    obtain ⟨hline, huncut, hopen⟩ := cutComment_eq_some (Prod.ext rfl hcut)
    refine .inr ⟨_, comment, Prod.ext rfl hcut, hline, openQuote_eq_none_iff.mp hopen, huncut,
      fun text => ?_⟩
    have hsplit := cutComment_append huncut ('$' :: text)
    rw [hopen, cutComment_dollar, List.append_nil] at hsplit
    exact hsplit

example : splitComment "fc4 \"cost $ 'per' pin\" $ in $".toList =
    ("fc4 \"cost $ 'per' pin\" ".toList, some " in $".toList) := by decide +kernel

end TransportDeck.Text
