import Mathlib.Data.List.Lex
import TransportDeck.Proofs.FillGraph.ClosedPath

/-!
First paths. Of the paths that end at a universe and meet no universe twice there is a first one in
dictionary order, whatever universe it starts from. A depth first search that follows fills in
ascending order comes to each universe along its first path, so the cycles it closes are those that
lie at the end of a first path.
-/

namespace TransportDeck.FillGraph

variable {R : Nat → Nat → Prop}

structure IsPathTo (R : Nat → Nat → Prop) (p : List Nat) (w : Nat) : Prop where
  chain : p.IsChain R
  nodup : p.Nodup
  last : p.getLast? = some w

/-- The first path to `w` in dictionary order. -/
structure IsFirstPath (R : Nat → Nat → Prop) (p : List Nat) (w : Nat) : Prop
    extends IsPathTo R p w where
  first : ∀ q, IsPathTo R q w → p ≤ q

/-- Some listing of the cycle `c` is the end of a first path. -/
def OnFirstPath (R : Nat → Nat → Prop) (c : List Nat) : Prop :=
  ∃ front r w, r ~r c ∧ IsFirstPath R (front ++ r) w

theorem IsFirstPath.unique {p q : List Nat} {w : Nat} (hp : IsFirstPath R p w)
    (hq : IsFirstPath R q w) : p = q :=
  le_antisymm (hp.first q hq.toIsPathTo) (hq.first p hp.toIsPathTo)

/-- Where two lists first differ, the left one has the smaller member. -/
def Precedes (p q : List Nat) : Prop :=
  ∃ common x y s t, p = common ++ x :: s ∧ q = common ++ y :: t ∧ x < y

theorem Precedes.lt {p q : List Nat} (h : Precedes p q) : p < q := by
  obtain ⟨common, x, y, s, t, rfl, rfl, hxy⟩ := h
  exact List.append_left_lt (List.Lex.rel hxy)

theorem Precedes.append {p q : List Nat} (h : Precedes p q) (s : List Nat) :
    Precedes (p ++ s) q := by
  obtain ⟨common, x, y, s', t, rfl, rfl, hxy⟩ := h
  exact ⟨common, x, y, s' ++ s, t, by simp, rfl, hxy⟩

theorem IsPathTo.ne_nil {p : List Nat} {w : Nat} (h : IsPathTo R p w) : p ≠ [] := by
  rintro rfl
  simpa using h.last

theorem IsPathTo.last_mem {p : List Nat} {w : Nat} (h : IsPathTo R p w) : w ∈ p :=
  List.mem_of_getLast? h.last

/-- The closed path of the cycle that a fill from the end of a path back to `x` closes. The path is
given with its end first. -/
def closing (names : List Nat) (x : Nat) : List Nat :=
  closedPath (x :: (names.takeWhile (· != x)).reverse)

theorem closing_reverse {front r : List Nat} {x : Nat} (h : (front ++ x :: r).Nodup) :
    closing (front ++ x :: r).reverse x = closedPath (x :: r) := by
  have hlater : ∀ u ∈ r.reverse, (u != x) = true := by
    intro u hu
    have hxr : x ∉ r := (List.nodup_cons.mp (List.nodup_append.mp h).2.1).1
    exact bne_iff_ne.mpr fun hux => hxr (hux ▸ List.mem_reverse.mp hu)
  have hrev : (front ++ x :: r).reverse = r.reverse ++ x :: front.reverse := by simp
  rw [closing, hrev, List.takeWhile_append_of_pos hlater]
  simp

/-- A fill from the end of a path back to one of its universes closes a cycle. -/
theorem IsPathTo.isCycle {front r : List Nat} {w x : Nat} (hp : IsPathTo R (front ++ x :: r) w)
    (hback : R w x) : IsCycle R (x :: r) := by
  refine ⟨(List.nodup_append.mp hp.nodup).2.1, x, r, rfl, ?_⟩
  have hlast : (x :: r).getLast? = some w := by
    rw [← hp.last, List.getLast?_append_of_ne_nil _ (List.cons_ne_nil x r)]
  refine hp.chain.right_of_append.append (List.isChain_singleton x) ?_
  intro u hu v hv
  have hu' : u = w := by
    rw [hlast] at hu
    exact (Option.some.inj hu).symm
  have hv' : v = x := by simpa using hv.symm
  exact hu' ▸ hv' ▸ hback

/-- The closed paths of the fills that lead back into a first path are those of the cycles that lie
at the end of a first path. -/
theorem closes_firstPath_iff {path : List Nat} :
    (∃ p w x, IsFirstPath R p w ∧ x ∈ p ∧ R w x ∧ path = closing p.reverse x) ↔
      ∃ c, IsCycle R c ∧ OnFirstPath R c ∧ ClosesFromLeast c path := by
  constructor
  · rintro ⟨p, w, x, hp, hx, hback, rfl⟩
    obtain ⟨front, r, rfl⟩ := List.append_of_mem hx
    have hcycle := hp.toIsPathTo.isCycle hback
    refine ⟨x :: r, hcycle, ⟨front, x :: r, w, List.IsRotated.refl _, hp⟩, ?_⟩
    rw [closing_reverse hp.nodup]
    exact closesFromLeast_closedPath hcycle.ne_nil
  · rintro ⟨c, hc, ⟨front, r, w, hrot, hp⟩, hclosed⟩
    have hcycle := hc.rotated hrot.symm
    obtain ⟨x, rest, rfl, hchain⟩ := hcycle.closed
    refine ⟨front ++ x :: rest, w, x, hp, by simp, ?_, ?_⟩
    · -- the listing ends where its first path ends, and leads on to its first universe
      have hlast : w ∈ (x :: rest).getLast? := by
        rw [← List.getLast?_append_of_ne_nil front (List.cons_ne_nil x rest), hp.last]
        exact rfl
      exact (List.isChain_append.mp hchain).2.2 w hlast x (by simp)
    · rw [closing_reverse hp.nodup]
      exact hcycle.eq_closedPath (hclosed.rotated hrot.symm)

end TransportDeck.FillGraph
