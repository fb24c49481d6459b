import Mathlib.Algebra.BigOperators.Group.Finset.Piecewise
import Mathlib.Algebra.BigOperators.Ring.Finset
import TransportDeck.FillGraph.Instances
import TransportDeck.Proofs.FillGraph.Fills

/-!
Sums of counts. Counts that go with universes are added up universe by universe, and cut off at the
largest count. It makes no difference whether counts are cut off before or after they are multiplied
and added, so sums can be compared up to the largest count.
-/

namespace TransportDeck.FillGraph

def SameCount (a b : Nat) : Prop := min maxInstances a = min maxInstances b

namespace SameCount

variable {a b c d : Nat}

theorem cut_off (a : Nat) : SameCount (min maxInstances a) a := by
  unfold SameCount
  omega

theorem trans (hab : SameCount a b) (hbc : SameCount b c) : SameCount a c :=
  Eq.trans hab hbc

instance : Trans SameCount SameCount SameCount where
  trans := SameCount.trans

theorem add (hab : SameCount a b) (hcd : SameCount c d) : SameCount (a + c) (b + d) := by
  unfold SameCount at *
  omega

theorem mul_right (h : SameCount a b) (n : Nat) : SameCount (a * n) (b * n) := by
  unfold SameCount at *
  rcases Nat.lt_or_ge a maxInstances with hlt | hge
  · have hsame : a = b := by omega
    rw [hsame]
  · -- both are past the largest count, and stay there unless they are multiplied by zero
    have hge' : maxInstances ≤ b := by omega
    rcases Nat.eq_zero_or_pos n with rfl | hpos
    · rw [Nat.mul_zero, Nat.mul_zero]
    · have ha : a ≤ a * n := Nat.le_mul_of_pos_right a hpos
      have hb : b ≤ b * n := Nat.le_mul_of_pos_right b hpos
      omega

theorem sum {s : Finset Nat} {f h : Nat → Nat} (hsame : ∀ u ∈ s, SameCount (f u) (h u)) :
    SameCount (∑ u ∈ s, f u) (∑ u ∈ s, h u) := by
  induction s using Finset.induction_on with
  | empty => rfl
  | insert u s hu ih =>
    rw [Finset.sum_insert hu, Finset.sum_insert hu]
    have hrest := ih fun w hw => hsame w (Finset.mem_insert_of_mem hw)
    exact (hsame u (Finset.mem_insert_self u s)).add hrest

end SameCount

def totalAt (counts : List (Nat × Nat)) (v : Nat) : Nat :=
  (counts.filter fun e => e.1 == v).foldr (fun e rest => e.2 + rest) 0

variable {counts : List (Nat × Nat)} {v : Nat}

theorem totalAt_cons (e : Nat × Nat) (counts : List (Nat × Nat)) (v : Nat) :
    totalAt (e :: counts) v = (if e.1 = v then e.2 else 0) + totalAt counts v := by
  by_cases h : e.1 = v <;> simp [totalAt, h]

theorem totalAt_append (counts more : List (Nat × Nat)) (v : Nat) :
    totalAt (counts ++ more) v = totalAt counts v + totalAt more v := by
  induction counts with
  | nil => simp [totalAt]
  | cons e rest ih => rw [List.cons_append, totalAt_cons, totalAt_cons, ih, Nat.add_assoc]

theorem totalAt_eq_zero (h : v ∉ counts.map (·.1)) : totalAt counts v = 0 := by
  have hnone : counts.filter (fun e => e.1 == v) = [] := by
    refine List.filter_eq_nil_iff.mpr fun e he => ?_
    rw [beq_iff_eq]
    exact fun hv => h (List.mem_map.mpr ⟨e, he, hv⟩)
  rw [totalAt, hnone]
  rfl

theorem totalAt_entries (t : Table Nat Nat) (v : Nat) : totalAt t.entries v = (t.find? v).getD 0 := by
  cases hfind : t.find? v with
  | none =>
    refine totalAt_eq_zero fun hv => ?_
    obtain ⟨n, hn⟩ := Table.mem_keys_iff.mp hv
    rw [hfind] at hn
    cases hn
  | some n =>
    obtain ⟨before, after, hsplit⟩ := List.append_of_mem (Table.find?_eq_some_iff_mem.mp hfind)
    have hascending := t.ascending
    rw [hsplit, List.pairwise_append] at hascending
    obtain ⟨-, hafter, hbefore⟩ := hascending
    have hzero : totalAt before v = 0 := by
      refine totalAt_eq_zero fun hv => ?_
      obtain ⟨e, he, rfl⟩ := List.mem_map.mp hv
      exact absurd (hbefore e he _ List.mem_cons_self) (Nat.lt_irrefl _)
    have hzero' : totalAt after v = 0 := by
      refine totalAt_eq_zero fun hv => ?_
      obtain ⟨e, he, rfl⟩ := List.mem_map.mp hv
      exact absurd ((List.pairwise_cons.mp hafter).1 e he) (Nat.lt_irrefl _)
    rw [hsplit, totalAt_append, totalAt_cons, hzero, hzero']
    simp

theorem find?_totals (counts : List (Nat × Nat)) (v : Nat) :
    (totals counts).find? v =
      if v ∈ counts.map (·.1) then some (min maxInstances (totalAt counts v)) else none := by
  split
  · next hv => exact find?_tabulate _ hv
  · next hv => exact find?_tabulate_of_not_mem _ hv

theorem mem_keys_totals : v ∈ (totals counts).keys ↔ v ∈ counts.map (·.1) :=
  mem_keys_tabulate

theorem sameCount_totals (counts : List (Nat × Nat)) (v : Nat) :
    SameCount (totalAt (totals counts).entries v) (totalAt counts v) := by
  rw [totalAt_entries, find?_totals]
  split
  · exact .cut_off _
  · next hv =>
    rw [totalAt_eq_zero hv]
    rfl

theorem sum_map_mul {s : Finset Nat} (n : Nat → Nat) (hs : ∀ e ∈ counts, e.1 ∈ s) :
    (counts.map fun e => e.2 * n e.1).sum = ∑ u ∈ s, totalAt counts u * n u := by
  induction counts with
  | nil => simp [totalAt]
  | cons e rest ih =>
    -- the first count contributes at its own universe and nowhere else
    have hfirst : ∑ u ∈ s, (if e.1 = u then e.2 * n u else 0) = e.2 * n e.1 := by
      rw [Finset.sum_ite_eq, if_pos (hs e List.mem_cons_self)]
    rw [List.map_cons, List.sum_cons, ih fun e he => hs e (List.mem_cons_of_mem _ he), ← hfirst,
      ← Finset.sum_add_distrib]
    refine Finset.sum_congr rfl fun u _ => ?_
    rw [totalAt_cons, Nat.add_mul]
    split <;> simp

end TransportDeck.FillGraph
