import Mathlib.Data.List.SplitBy
import TransportDeck.Blocks
import TransportDeck.Proofs.Text.Stops

/-!
Runs of blank lines. Lines fall into maximal runs that are blank throughout or not blank anywhere; a
block ends where the first blank run begins, and what comes after that run is divided further.
-/

namespace TransportDeck

def blankRuns (lines : List PhysicalLine) : List (List PhysicalLine) :=
  (lines.splitBy fun a b => a.isBlank == b.isBlank).filter fun run => run.all PhysicalLine.isBlank

def Unbroken (lines : List PhysicalLine) : Prop :=
  ∀ l ∈ lines, l.isBlank = false

/-- The first run of blank lines, with the lines on either side of it. -/
structure FirstRun (lines before run after : List PhysicalLine) : Prop where
  joined : lines = before ++ (run ++ after)
  unbroken : Unbroken before
  ne_nil : run ≠ []
  blank : ∀ l ∈ run, l.isBlank = true
  maximal : ∀ l ∈ after.head?, l.isBlank = false

theorem Unbroken.takeWhile_dropWhile_append {front rest : List PhysicalLine} (h : Unbroken front)
    (hrest : ∀ l ∈ rest.head?, l.isBlank = true) :
    ((front ++ rest).takeWhile fun l => !PhysicalLine.isBlank l) = front ∧
      ((front ++ rest).dropWhile fun l => !PhysicalLine.isBlank l) = rest := by
  apply TransportDeck.takeWhile_dropWhile_append
  · intro l hl
    rw [h l hl]
    rfl
  · intro l hl
    rw [hrest l hl]
    rfl

theorem Unbroken.takeWhile_eq {lines : List PhysicalLine} (h : Unbroken lines) :
    (lines.takeWhile fun l => !PhysicalLine.isBlank l) = lines := by
  apply List.takeWhile_eq_self_iff.mpr
  intro l hl
  rw [h l hl]
  rfl

theorem Unbroken.blankRuns_eq_nil {lines : List PhysicalLine} (h : Unbroken lines) :
    blankRuns lines = [] := by
  apply List.filter_eq_nil_iff.mpr
  intro run hrun hblank
  obtain ⟨l, hl⟩ := List.exists_mem_of_ne_nil run (List.ne_nil_of_mem_splitBy hrun)
  have hmem : l ∈ lines := by
    rw [← List.flatten_splitBy (fun a b => a.isBlank == b.isBlank) lines]
    exact List.mem_flatten.mpr ⟨run, hrun, hl⟩
  have hl : l.isBlank = true := List.all_eq_true.mp hblank l hl
  rw [h l hmem] at hl
  exact Bool.noConfusion hl

/-- Where a line is followed by one of the other sort, no run goes on. -/
theorem blankRuns_append {front rest : List PhysicalLine}
    (h : ∀ a ∈ front.getLast?, ∀ b ∈ rest.head?, a.isBlank ≠ b.isBlank) :
    blankRuns (front ++ rest) = blankRuns front ++ blankRuns rest := by
  have hcut : ∀ a ∈ front.getLast?, ∀ b ∈ rest.head?, (a.isBlank == b.isBlank) = false :=
    fun a ha b hb => beq_eq_false_iff_ne.mpr (h a ha b hb)
  rw [blankRuns, List.splitBy_append hcut, List.filter_append]
  rfl

theorem blankRuns_of_blank {run : List PhysicalLine} (hne : run ≠ [])
    (h : ∀ l ∈ run, l.isBlank = true) : blankRuns run = [run] := by
  have halike : run.Pairwise fun a b => (a.isBlank == b.isBlank) = true := by
    apply List.pairwise_of_forall_mem_list
    intro a ha b hb
    rw [h a ha, h b hb]
    rfl
  rw [blankRuns, List.splitBy_of_isChain hne halike.isChain, List.filter_cons_of_pos]
  · rfl
  · exact List.all_eq_true.mpr h

theorem unbroken_or_exists_firstRun (lines : List PhysicalLine) :
    Unbroken lines ∨ ∃ before run after, FirstRun lines before run after := by
  let front := lines.takeWhile fun l => !l.isBlank
  let tail := lines.dropWhile fun l => !l.isBlank
  have hjoined : lines = front ++ tail := List.takeWhile_append_dropWhile.symm
  have hfront : Unbroken front := by
    intro l hl
    have hnot := List.mem_takeWhile_imp hl
    rwa [Bool.not_eq_true'] at hnot
  by_cases htail : tail = []
  · left
    rw [hjoined, htail, List.append_nil]
    exact hfront
  · right
    refine ⟨front, tail.takeWhile PhysicalLine.isBlank, tail.dropWhile PhysicalLine.isBlank, ?_⟩
    have hhead : ∀ l ∈ tail.head?, l.isBlank = true := by
      intro l hl
      have hstop := List.head?_dropWhile_not (fun l : PhysicalLine => !l.isBlank) lines
      rw [Option.mem_def.mp hl] at hstop
      simpa using hstop
    refine ⟨?_, hfront, ?_, fun l => List.mem_takeWhile_imp, ?_⟩
    · rw [List.takeWhile_append_dropWhile]
      exact hjoined
    · obtain ⟨first, rest, hcons⟩ := List.exists_cons_of_ne_nil htail
      have hfirst : first.isBlank = true := hhead first (by rw [hcons]; rfl)
      rw [hcons, List.takeWhile_cons_of_pos hfirst]
      exact List.cons_ne_nil _ _
    · intro l hl
      have hstop := List.head?_dropWhile_not PhysicalLine.isBlank tail
      rwa [Option.mem_def.mp hl] at hstop

namespace FirstRun

variable {lines before run after : List PhysicalLine}

theorem head_isBlank (h : FirstRun lines before run after) :
    ∀ l ∈ (run ++ after).head?, l.isBlank = true := by
  obtain ⟨first, rest, hrun⟩ := List.exists_cons_of_ne_nil h.ne_nil
  intro l hl
  rw [hrun] at hl
  cases hl
  exact h.blank first (hrun ▸ List.mem_cons_self)

theorem blankRuns_eq (h : FirstRun lines before run after) :
    blankRuns lines = run :: blankRuns after := by
  -- the sort of line changes where the run begins and where it ends
  have hstart : ∀ a ∈ before.getLast?, ∀ b ∈ (run ++ after).head?, a.isBlank ≠ b.isBlank := by
    intro a ha b hb
    rw [h.unbroken a (List.mem_of_mem_getLast? ha), h.head_isBlank b hb]
    exact Bool.false_ne_true
  have hstop : ∀ a ∈ run.getLast?, ∀ b ∈ after.head?, a.isBlank ≠ b.isBlank := by
    intro a ha b hb
    rw [h.blank a (List.mem_of_mem_getLast? ha), h.maximal b hb]
    exact Bool.false_ne_true.symm
  calc blankRuns lines
      = blankRuns (before ++ (run ++ after)) := congrArg blankRuns h.joined
    _ = blankRuns before ++ (blankRuns run ++ blankRuns after) := by
        rw [blankRuns_append hstart, blankRuns_append hstop]
    _ = [] ++ ([run] ++ blankRuns after) := by
        rw [h.unbroken.blankRuns_eq_nil, blankRuns_of_blank h.ne_nil h.blank]
    _ = run :: blankRuns after := rfl

theorem takeWhile_dropWhile (h : FirstRun lines before run after) :
    (lines.takeWhile fun l => !PhysicalLine.isBlank l) = before ∧
      (lines.dropWhile fun l => !PhysicalLine.isBlank l) = run ++ after := by
  rw [h.joined]
  exact h.unbroken.takeWhile_dropWhile_append h.head_isBlank

end FirstRun

end TransportDeck
