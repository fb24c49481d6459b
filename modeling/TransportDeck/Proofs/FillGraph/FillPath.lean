import Mathlib.Order.Lattice.Nat
import Mathlib.Logic.Relation
import TransportDeck.Proofs.FillGraph.Fills

namespace TransportDeck.FillGraph

variable {R : Nat → Nat → Prop} {p : List Nat} {u v : Nat}

/-- The universes `p`, entered one after the other from universe zero on, lead to `v`. -/
inductive FillPath (R : Nat → Nat → Prop) : List Nat → Nat → Prop
  | zero : FillPath R [] 0
  | fill {p : List Nat} {u v : Nat} (hp : FillPath R p u) (hfill : R u v) : FillPath R (p ++ [v]) v

/-- The number of fills on a shortest way to `v`. -/
def IsDepth (R : Nat → Nat → Prop) (v k : Nat) : Prop :=
  IsLeast {n | ∃ p, FillPath R p v ∧ p.length = n} k

namespace FillPath

theorem reaches (h : FillPath R p v) : Relation.ReflTransGen R 0 v := by
  induction h with
  | zero => exact .refl
  | fill _ hfill ih => exact ih.tail hfill

theorem getLast_eq (h : FillPath R p v) : (0 :: p).getLast (List.cons_ne_nil 0 p) = v := by
  cases h with
  | zero => rfl
  | fill => simp

theorem unique (hu : FillPath R p u) (hv : FillPath R p v) : u = v :=
  hu.getLast_eq.symm.trans hv.getLast_eq

theorem leads_on (h : FillPath R p v) : ∀ w ∈ 0 :: p, Relation.ReflTransGen R w v := by
  induction h with
  | zero =>
    intro w hw
    rw [List.mem_singleton.mp hw]
  | @fill p u v _ hfill ih =>
    intro w hw
    rw [← List.cons_append, List.mem_append, List.mem_singleton] at hw
    rcases hw with hw | rfl
    · exact (ih w hw).tail hfill
    · exact .refl

/-- Where nothing contains itself, no way meets a universe twice. -/
theorem nodup (hacyclic : ∀ u, ¬ Relation.TransGen R u u) (h : FillPath R p v) :
    (0 :: p).Nodup := by
  induction h with
  | zero => exact List.nodup_singleton 0
  | @fill p u v hp hfill ih =>
    rw [← List.cons_append]
    refine ih.append (List.nodup_singleton v) ?_
    -- a universe met before would lead on to `u` and by the last fill back to itself
    intro w hw hv
    rw [List.mem_singleton.mp hv] at hw
    exact hacyclic v (Relation.TransGen.tail' (hp.leads_on v hw) hfill)

theorem subset {g : FillGraph} (hg : g.WellFormed) (h : FillPath g.Fills p v) :
    0 :: p ⊆ g.universes := by
  induction h with
  | zero => exact List.cons_subset.mpr ⟨hg.zero_mem, List.nil_subset _⟩
  | fill _ hfill ih =>
    rw [← List.cons_append]
    have hv := hg.filled_mem hfill
    exact List.append_subset.mpr ⟨ih, List.cons_subset.mpr ⟨hv, List.nil_subset _⟩⟩

theorem mem_universes {g : FillGraph} (hg : g.WellFormed) (h : FillPath g.Fills p v) :
    v ∈ g.universes := by
  have hlast := List.getLast_mem (List.cons_ne_nil 0 p)
  rw [h.getLast_eq] at hlast
  exact h.subset hg hlast

end FillPath

theorem exists_fillPath_iff : (∃ p, FillPath R p v) ↔ Relation.ReflTransGen R 0 v := by
  constructor
  · rintro ⟨p, hp⟩
    exact hp.reaches
  · intro h
    induction h with
    | refl => exact ⟨[], .zero⟩
    | tail _ hfill ih =>
      obtain ⟨p, hp⟩ := ih
      exact ⟨_, hp.fill hfill⟩

theorem exists_isDepth_iff : (∃ k, IsDepth R v k) ↔ Relation.ReflTransGen R 0 v := by
  rw [← exists_fillPath_iff]
  constructor
  · rintro ⟨k, ⟨p, hp, _⟩, _⟩
    exact ⟨p, hp⟩
  · rintro ⟨p, hp⟩
    have hsome : {n | ∃ p, FillPath R p v ∧ p.length = n}.Nonempty := ⟨p.length, p, hp, rfl⟩
    exact ⟨sInf _, Nat.sInf_mem hsome, fun n hn => Nat.sInf_le hn⟩

/-- Depths grow by one from fill to fill: the last fill of a shortest way starts one fill less deep,
and no universe is more than one fill deeper than those it is filled into. -/
theorem isDepth_succ_iff {k : Nat} :
    IsDepth R v (k + 1) ↔
      (∀ p, FillPath R p v → k < p.length) ∧ ∃ u, IsDepth R u k ∧ R u v := by
  constructor
  · rintro ⟨⟨p, hp, hlength⟩, hleast⟩
    refine ⟨fun q hq => hleast ⟨q, hq, rfl⟩, ?_⟩
    cases hp with
    | zero => exact absurd hlength (by simp)
    | @fill p u v hp hfill =>
      have hk : p.length = k := by simpa using hlength
      refine ⟨u, ⟨⟨p, hp, hk⟩, ?_⟩, hfill⟩
      rintro n ⟨q, hq, rfl⟩
      have hlonger : k + 1 ≤ (q ++ [v]).length := hleast ⟨q ++ [v], hq.fill hfill, rfl⟩
      simpa using hlonger
  · rintro ⟨hlonger, u, ⟨⟨p, hp, hlength⟩, _⟩, hfill⟩
    refine ⟨⟨p ++ [v], hp.fill hfill, by simp [hlength]⟩, ?_⟩
    rintro n ⟨q, hq, rfl⟩
    exact hlonger q hq

end TransportDeck.FillGraph
