import Mathlib.Logic.Relation
import TransportDeck.Proofs.Like.Chain

/-!
Where bases lead. A number has one base at most, so following the bases from a cell comes to exactly
one of three ends: a full definition, a number that no cell has, or a number that was met before.
-/

namespace TransportDeck

open Relation

section RightUnique

variable {R : Nat → Nat → Prop} {a b n m : Nat}

/-- On the way around a loop one never leaves it. -/
theorem transGen_self_of_reflTransGen (hR : Relator.RightUnique R) (hloop : TransGen R n n)
    (h : ReflTransGen R n m) : TransGen R m m := by
  induction h with
  | refl => exact hloop
  | tail _ hstep ih =>
    obtain ⟨next, hnext, hback⟩ := TransGen.head'_iff.mp ih
    rw [hR hnext hstep] at hback
    exact .tail' hback hstep

theorem not_transGen_self_of_end (hR : Relator.RightUnique R) (hend : ∀ m, ¬ R a m)
    (ha : ReflTransGen R n a) (hm : ReflTransGen R n m) : ¬ TransGen R m m := by
  intro hloop
  have hself : TransGen R a a := by
    rcases ReflTransGen.total_of_right_unique hR ha hm with ham | hma
    · rcases ReflTransGen.cases_head ham with rfl | ⟨next, hnext, _⟩
      · exact hloop
      · exact absurd hnext (hend next)
    · exact transGen_self_of_reflTransGen hR hloop hma
  obtain ⟨next, hnext, _⟩ := TransGen.head'_iff.mp hself
  exact hend next hnext

theorem end_unique (hR : Relator.RightUnique R) (ha : ReflTransGen R n a) (hb : ReflTransGen R n b)
    (henda : ∀ m, ¬ R a m) (hendb : ∀ m, ¬ R b m) : a = b := by
  rcases ReflTransGen.total_of_right_unique hR ha hb with hab | hba
  · rcases ReflTransGen.cases_head hab with hsame | ⟨next, hnext, _⟩
    · exact hsame
    · exact absurd hnext (henda next)
  · rcases ReflTransGen.cases_head hba with hsame | ⟨next, hnext, _⟩
    · exact hsame.symm
    · exact absurd hnext (hendb next)

end RightUnique

variable {cells pool acc chain : List Cell} {root c : Cell} {n m : Nat}

/-- The cell of number `n` is written like that of number `m`, should there be one. -/
def LikeLink (cells : List Cell) (n m : Nat) : Prop :=
  ∃ c ∈ cells, c.number = n ∧ c.like = some m

/-- Following the bases from `n` on comes to the number `m`, which no cell has. -/
def LeadsToMissing (cells : List Cell) (n m : Nat) : Prop :=
  ReflTransGen (LikeLink cells) n m ∧ ∀ c ∈ cells, c.number ≠ m

/-- Following the bases from `n` on comes to some number twice. -/
def LeadsIntoLoop (cells : List Cell) (n : Nat) : Prop :=
  ∃ m, ReflTransGen (LikeLink cells) n m ∧ TransGen (LikeLink cells) m m

theorem rightUnique_likeLink (hd : (cells.map (·.number)).Nodup) :
    Relator.RightUnique (LikeLink cells) := by
  rintro n m m' ⟨c, hc, hn, hm⟩ ⟨c', hc', hn', hm'⟩
  obtain rfl := List.inj_on_of_nodup_map hd hc hc' (hn.trans hn'.symm)
  exact Option.some.inj (hm.symm.trans hm')

theorem IsLikeChain.root_full (h : IsLikeChain cells root chain c) : root.like = none := by
  induction h with
  | full _ hfull => exact hfull
  | like _ _ _ ih => exact ih

theorem IsLikeChain.links (h : IsLikeChain cells root chain c) :
    ReflTransGen (LikeLink cells) c.number root.number := by
  induction h with
  | full => exact .refl
  | like _ hmem hlike ih => exact .head ⟨_, hmem, rfl, hlike⟩ ih

theorem IsLikeChain.not_likeLink_root (hd : (cells.map (·.number)).Nodup)
    (h : IsLikeChain cells root chain c) : ∀ m, ¬ LikeLink cells root.number m := by
  rintro m ⟨c', hc', hn, hm⟩
  have hroot : root ∈ cells := h.subset List.mem_cons_self
  rw [List.inj_on_of_nodup_map hd hc' hroot hn, h.root_full] at hm
  cases hm

theorem LeadsToMissing.not_likeLink (h : LeadsToMissing cells n m) :
    ∀ next, ¬ LikeLink cells m next := by
  rintro next ⟨c, hc, hm, _⟩
  exact h.2 c hc hm

theorem LeadsToMissing.unique {m' : Nat} (hd : (cells.map (·.number)).Nodup)
    (h : LeadsToMissing cells n m) (h' : LeadsToMissing cells n m') : m = m' :=
  end_unique (rightUnique_likeLink hd) h.1 h'.1 h.not_likeLink h'.not_likeLink

theorem LeadsToMissing.not_loop (hd : (cells.map (·.number)).Nodup)
    (h : LeadsToMissing cells n m) : ¬ LeadsIntoLoop cells n := by
  rintro ⟨k, hk, hself⟩
  exact not_transGen_self_of_end (rightUnique_likeLink hd) h.not_likeLink h.1 hk hself

theorem IsLikeChain.not_loop (hd : (cells.map (·.number)).Nodup)
    (h : IsLikeChain cells root chain c) : ¬ LeadsIntoLoop cells c.number := by
  rintro ⟨k, hk, hself⟩
  exact not_transGen_self_of_end (rightUnique_likeLink hd) (h.not_likeLink_root hd) h.links hk hself

theorem IsLikeChain.not_missing (hd : (cells.map (·.number)).Nodup)
    (h : IsLikeChain cells root chain c) : ¬ LeadsToMissing cells c.number m := by
  intro hm
  have hsame := end_unique (rightUnique_likeLink hd) h.links hm.1 (h.not_likeLink_root hd)
    hm.not_likeLink
  exact hm.2 root (h.subset List.mem_cons_self) hsame

/-- The cell that leaves the pool joins those visited, and every other cell stays where it was. -/
theorem mem_pool_or_visited (hd : (cells.map (·.number)).Nodup)
    (hall : ∀ c ∈ cells, c ∈ pool ∨ c ∈ acc) {cell : Cell} (hcell : cell ∈ cells)
    (hc : c ∈ cells) : c ∈ (pool.eraseP fun x => x.number == cell.number) ∨ c ∈ cell :: acc := by
  rcases hall c hc with hcpool | hcacc
  · by_cases hnumber : c.number = cell.number
    · rw [List.inj_on_of_nodup_map hd hc hcell hnumber]
      exact .inr List.mem_cons_self
    · exact .inl ((List.mem_eraseP_of_neg (by simpa using hnumber)).mpr hcpool)
  · exact .inr (List.mem_cons_of_mem _ hcacc)

/-- Where following the bases ends without a full definition, it says why. The cells that were visited
are in `acc`, and lead to `n`. -/
theorem leads_of_followLike (hd : (cells.map (·.number)).Nodup)
    (hall : ∀ c ∈ cells, c ∈ pool ∨ c ∈ acc) (hpool : pool ⊆ cells)
    (hacc : ∀ c ∈ acc, TransGen (LikeLink cells) c.number n) :
    (∀ m, followLike pool acc n = .missing m → LeadsToMissing cells n m) ∧
      (∀ numbers, followLike pool acc n = .loop numbers → LeadsIntoLoop cells n) := by
  induction pool, acc, n using followLike.induct with
  | case1 pool acc n hfind hseen =>
    rw [followLike, hfind]
    simp only [hseen, if_true, reduceCtorEq, false_implies, implies_true, true_and]
    intro _ _
    obtain ⟨c, hc, hn⟩ := List.any_eq_true.mp hseen
    have hback := hacc c hc
    rw [beq_iff_eq.mp hn] at hback
    exact ⟨n, .refl, hback⟩
  | case2 pool acc n hfind hseen =>
    rw [followLike, hfind]
    simp only [hseen, Bool.false_eq_true, if_false, reduceCtorEq, false_implies, implies_true,
      and_true, LikeChain.missing.injEq]
    rintro _ rfl
    refine ⟨.refl, fun c hc hn => ?_⟩
    -- a cell of number `n` would be found in the pool or be seen among those visited
    rcases hall c hc with hc | hc
    · exact absurd (beq_iff_eq.mpr hn) (List.find?_eq_none.mp hfind c hc)
    · exact hseen (List.any_eq_true.mpr ⟨c, hc, beq_iff_eq.mpr hn⟩)
  | case3 pool acc n cell hfind hfull =>
    rw [followLike, hfind]
    simp [hfull]
  | case4 pool acc n cell hfind base hlike ih =>
    rw [followLike, hfind]
    simp only [hlike]
    have hmem := List.mem_of_find?_eq_some hfind
    obtain rfl : cell.number = n := by simpa using List.find?_some hfind
    have hlink : LikeLink cells cell.number base := ⟨cell, hpool hmem, rfl, hlike⟩
    have hrest : ∀ c ∈ cells, c ∈ (pool.eraseP fun x => x.number == cell.number) ∨ c ∈ cell :: acc :=
      fun c hc => mem_pool_or_visited hd hall (hpool hmem) hc
    have hsub : (pool.eraseP fun x => x.number == cell.number) ⊆ cells :=
      fun _ hc => hpool (List.mem_of_mem_eraseP hc)
    have hvisited : ∀ c ∈ cell :: acc, TransGen (LikeLink cells) c.number base := by
      intro c hc
      rcases List.mem_cons.mp hc with rfl | hc
      · exact .single hlink
      · exact (hacc c hc).tail hlink
    obtain ⟨hmissing, hloop⟩ := ih hrest hsub hvisited
    constructor
    · intro m h
      obtain ⟨hlinks, hnone⟩ := hmissing m h
      exact ⟨.head hlink hlinks, hnone⟩
    · intro numbers h
      obtain ⟨m, hlinks, hself⟩ := hloop numbers h
      exact ⟨m, .head hlink hlinks, hself⟩

end TransportDeck
