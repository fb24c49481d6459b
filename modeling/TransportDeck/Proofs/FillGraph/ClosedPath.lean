import Mathlib.Data.List.Chain
import Mathlib.Data.List.Rotate
import TransportDeck.FillGraph.Cycles

namespace TransportDeck.FillGraph

variable {R : Nat → Nat → Prop}

/-- Distinct universes, each related to the next and the last to the first. -/
structure IsCycle (R : Nat → Nat → Prop) (c : List Nat) : Prop where
  nodup : c.Nodup
  closed : ∃ first rest, c = first :: rest ∧ (c ++ [first]).IsChain R

/-- The path `p` goes once around the cycle `c`, from its smallest universe back to it. -/
def ClosesFromLeast (c p : List Nat) : Prop :=
  ∃ least rest, p = least :: rest ++ [least] ∧ least :: rest ~r c ∧ ∀ u ∈ c, least ≤ u

structure IsClosedPath (R : Nat → Nat → Prop) (p : List Nat) : Prop where
  long : 2 ≤ p.length
  closes : p.getLast? = p.head?
  least : ∀ first ∈ p.head?, ∀ u ∈ p, first ≤ u
  nodup : p.dropLast.Nodup
  chain : p.IsChain R

/-- Both sides say that the relation leads along `a` into `b` and along `b` back into `a`. -/
theorem isChain_around {a b : List Nat} {x y : Nat} :
    (x :: a ++ y :: b ++ [x]).IsChain R ↔ (y :: b ++ x :: a ++ [y]).IsChain R := by
  have hsplit (a b : List Nat) (x y : Nat) : (x :: a ++ y :: b ++ [x]).IsChain R ↔
      (x :: a ++ [y]).IsChain R ∧ (y :: b ++ [x]).IsChain R := by
    rw [List.append_assoc]
    exact List.isChain_split
  rw [hsplit, hsplit, and_comm]

theorem IsCycle.rotated {c c' : List Nat} (hc : IsCycle R c) (hr : c ~r c') : IsCycle R c' := by
  refine ⟨hr.nodup_iff.mp hc.nodup, ?_⟩
  obtain ⟨n, hn, rfl⟩ := List.isRotated_iff_mod.mp hr
  obtain ⟨first, rest, hcons, hchain⟩ := hc.closed
  rw [List.rotate_eq_drop_append_take hn]
  have hparts : c.take n ++ c.drop n = c := List.take_append_drop n c
  cases ha : c.take n with
  | nil =>
    rw [ha, List.nil_append] at hparts
    rw [List.append_nil, hparts]
    exact ⟨first, rest, hcons, hchain⟩
  | cons x a =>
    rw [ha] at hparts
    have hx : first = x := by
      rw [hcons] at hparts
      exact (List.cons.inj hparts).1.symm
    cases hb : c.drop n with
    | nil =>
      rw [hb, List.append_nil] at hparts
      rw [List.nil_append, hparts]
      exact ⟨first, rest, hcons, hchain⟩
    | cons y b =>
      rw [← hparts, hb, hx] at hchain
      exact ⟨y, b ++ x :: a, rfl, isChain_around.mp hchain⟩

/-- The closed path is cut where the smallest universe stands. -/
theorem closedPath_split {c : List Nat} (hc : c ≠ []) :
    ∃ front least back, c = front ++ least :: back ∧ (∀ u ∈ c, least ≤ u) ∧
      closedPath c = least :: (back ++ front) ++ [least] := by
  obtain ⟨least, hmin⟩ : ∃ least, c.min? = some least :=
    Option.isSome_iff_exists.mp (List.isSome_min?_iff.mpr hc)
  have ⟨hmem, hle⟩ := List.min?_eq_some_iff.mp hmin
  obtain ⟨front, back, rfl, hfront⟩ := List.eq_append_cons_of_mem hmem
  have hpass : ∀ u ∈ front, (u != least) = true := by
    intro u hu
    exact bne_iff_ne.mpr fun h => hfront (h ▸ hu)
  refine ⟨front, least, back, rfl, hle, ?_⟩
  rw [closedPath, hmin]
  simp only [List.dropWhile_append_of_pos hpass, List.takeWhile_append_of_pos hpass]
  simp

theorem closesFromLeast_closedPath {c : List Nat} (hc : c ≠ []) :
    ClosesFromLeast c (closedPath c) := by
  obtain ⟨front, least, back, hsplit, hle, hpath⟩ := closedPath_split hc
  refine ⟨least, back ++ front, hpath, ?_, hle⟩
  rw [hsplit, ← List.cons_append]
  exact List.isRotated_append

theorem ClosesFromLeast.rotated {c c' p : List Nat} (hp : ClosesFromLeast c p) (hr : c ~r c') :
    ClosesFromLeast c' p := by
  obtain ⟨least, rest, hpath, hrot, hle⟩ := hp
  exact ⟨least, rest, hpath, hrot.trans hr, fun u hu => hle u (hr.mem_iff.mpr hu)⟩

/-- A list without repeats has one rotation for each first member. -/
theorem rotated_cons_inj {x : Nat} {a b : List Nat} (hd : (x :: a).Nodup)
    (hr : x :: a ~r x :: b) : x :: a = x :: b := by
  obtain ⟨n, hn, hrot⟩ := List.isRotated_iff_mod.mp hr
  by_cases hzero : n % (x :: a).length = 0
  · rw [← hrot, ← List.rotate_mod, hzero, List.rotate_zero]
  · -- a proper rotation would start with a later member
    have hlt : n % (x :: a).length < (x :: a).length := Nat.mod_lt _ (by simp)
    have hhead : (x :: a)[n % (x :: a).length] = (x :: a)[0] := by
      have h := congrArg List.head? hrot
      rw [← List.rotate_mod, List.head?_rotate hlt, List.getElem?_eq_getElem hlt] at h
      exact Option.some.inj h
    exact absurd ((hd.getElem_inj_iff).mp hhead) hzero

theorem ClosesFromLeast.unique {c p q : List Nat} (hc : c.Nodup) (hp : ClosesFromLeast c p)
    (hq : ClosesFromLeast c q) : p = q := by
  obtain ⟨least, rest, rfl, hrot, hle⟩ := hp
  obtain ⟨least', rest', rfl, hrot', hle'⟩ := hq
  have hfirst : least = least' := by
    have h1 := hle least' (hrot'.mem_iff.mp List.mem_cons_self)
    have h2 := hle' least (hrot.mem_iff.mp List.mem_cons_self)
    omega
  subst hfirst
  rw [rotated_cons_inj (hrot.nodup_iff.mpr hc) (hrot.trans hrot'.symm)]

theorem IsCycle.ne_nil {c : List Nat} (hc : IsCycle R c) : c ≠ [] := by
  obtain ⟨first, rest, rfl, _⟩ := hc.closed
  exact List.cons_ne_nil first rest

theorem IsCycle.eq_closedPath {c p : List Nat} (hc : IsCycle R c) (hp : ClosesFromLeast c p) :
    p = closedPath c :=
  hp.unique hc.nodup (closesFromLeast_closedPath hc.ne_nil)

theorem IsCycle.isClosedPath {c p : List Nat} (hc : IsCycle R c) (hp : ClosesFromLeast c p) :
    IsClosedPath R p := by
  obtain ⟨least, rest, rfl, hrot, hle⟩ := hp
  have hcycle := hc.rotated hrot.symm
  obtain ⟨first, rest', hcons, hchain⟩ := hcycle.closed
  obtain ⟨rfl, rfl⟩ := List.cons.inj hcons
  refine ⟨by simp, by rw [List.getLast?_concat, List.cons_append, List.head?_cons], ?_, ?_, hchain⟩
  · intro first hfirst u hu
    have hfirst' : least = first := by simpa using hfirst
    subst hfirst'
    apply hle
    rw [← hrot.mem_iff]
    rcases List.mem_append.mp hu with hu | hu
    · exact hu
    · exact List.mem_singleton.mp hu ▸ List.mem_cons_self
  · rw [List.dropLast_concat]
    exact hcycle.nodup

/-- On the closed path of a cycle the last universe listed still leads to the first. -/
theorem last_first_infix_closedPath {x w : Nat} {r : List Nat}
    (hlast : (x :: r).getLast? = some w) : [w, x] <:+: closedPath (x :: r) := by
  obtain ⟨front, least, back, hsplit, _, hpath⟩ := closedPath_split (List.cons_ne_nil x r)
  have hback : ∃ before, least :: back = before ++ [w] := by
    rw [hsplit, List.getLast?_append_of_ne_nil _ (List.cons_ne_nil least back)] at hlast
    exact ⟨_, (List.dropLast_append_getLast? w hlast).symm⟩
  obtain ⟨before, hbefore⟩ := hback
  rw [hpath, ← List.cons_append, hbefore]
  cases front with
  | nil =>
    obtain ⟨rfl, _⟩ := List.cons.inj hsplit
    exact ⟨before, [], by simp⟩
  | cons y front =>
    obtain ⟨rfl, _⟩ := List.cons.inj hsplit
    exact ⟨before, front ++ [least], by simp⟩

end TransportDeck.FillGraph
