import Mathlib.Data.List.Nodup
import TransportDeck.Like

namespace TransportDeck

variable {cells pool acc chain chain' : List Cell} {root root' c c' : Cell}

/-- The cells of `chain` lead from the full definition `root` up to `c`, each written like the one
below it. -/
inductive IsLikeChain (cells : List Cell) (root : Cell) : List Cell → Cell → Prop
  | full (hmem : root ∈ cells) (hfull : root.like = none) : IsLikeChain cells root [] root
  | like {chain : List Cell} {base c : Cell} (hbase : IsLikeChain cells root chain base)
      (hmem : c ∈ cells) (hlike : c.like = some base.number) :
      IsLikeChain cells root (chain ++ [c]) c

namespace IsLikeChain

theorem mem (h : IsLikeChain cells root chain c) : c ∈ cells := by
  cases h with
  | full hmem => exact hmem
  | like _ hmem => exact hmem

theorem like_eq_none_iff (h : IsLikeChain cells root chain c) : c.like = none ↔ chain = [] := by
  cases h with
  | full _ hfull => simp [hfull]
  | like _ _ hlike => simp [hlike]

theorem eq_root (h : IsLikeChain cells root chain c) (hnil : chain = []) : c = root := by
  cases h with
  | full => rfl
  | like => exact absurd hnil (by simp)

theorem subset (h : IsLikeChain cells root chain c) : root :: chain ⊆ cells := by
  induction h with
  | full hmem => exact List.cons_subset.mpr ⟨hmem, List.nil_subset _⟩
  | like _ hmem _ ih =>
    rw [← List.cons_append]
    exact List.append_subset.mpr ⟨ih, List.cons_subset.mpr ⟨hmem, List.nil_subset _⟩⟩

/-- A chain stays a chain among other cells, as long as these include it. -/
theorem transfer (h : IsLikeChain cells root chain c) (hsub : root :: chain ⊆ pool) :
    IsLikeChain pool root chain c := by
  induction h with
  | full _ hfull => exact .full (hsub List.mem_cons_self) hfull
  | like _ _ hlike ih =>
    rw [← List.cons_append] at hsub
    have ⟨hbelow, hself⟩ := List.append_subset.mp hsub
    exact .like (ih hbelow) (hself List.mem_cons_self) hlike

/-- Where numbers are distinct, a cell has one chain. -/
theorem unique (hd : (cells.map (·.number)).Nodup) (h : IsLikeChain cells root chain c)
    (h' : IsLikeChain cells root' chain' c') (hnumber : c.number = c'.number) :
    chain = chain' ∧ root = root' := by
  have hcell {a b : Cell} (ha : a ∈ cells) (hb : b ∈ cells) (hab : a.number = b.number) : a = b :=
    List.inj_on_of_nodup_map hd ha hb hab
  induction h generalizing chain' c' with
  | full hmem hfull =>
    obtain rfl := hcell hmem h'.mem hnumber
    cases h' with
    | full => exact ⟨rfl, rfl⟩
    | like _ _ hlike => rw [hfull] at hlike; cases hlike
  | like _ hmem hlike ih =>
    obtain rfl := hcell hmem h'.mem hnumber
    cases h' with
    | full _ hfull => rw [hlike] at hfull; cases hfull
    | like hbase' _ hlike' =>
      rw [hlike] at hlike'
      obtain ⟨rfl, rfl⟩ := ih hbase' (Option.some.inj hlike')
      exact ⟨rfl, rfl⟩

/-- Every cell on a chain ends a chain that is no longer. -/
theorem exists_lower (h : IsLikeChain cells root chain c) {d : Cell} (hd : d ∈ root :: chain) :
    ∃ lower, IsLikeChain cells root lower d ∧ lower.length ≤ chain.length := by
  induction h with
  | full hmem hfull =>
    obtain rfl := List.mem_singleton.mp hd
    exact ⟨[], .full hmem hfull, Nat.le_refl _⟩
  | like hbase hmem hlike ih =>
    rw [← List.cons_append] at hd
    rcases List.mem_append.mp hd with hd | hd
    · obtain ⟨lower, hlower, hle⟩ := ih hd
      exact ⟨lower, hlower, by rw [List.length_append]; omega⟩
    · obtain rfl := List.mem_singleton.mp hd
      exact ⟨_, .like hbase hmem hlike, Nat.le_refl _⟩

/-- No cell is among those it is written over. -/
theorem not_mem_base (hd : (cells.map (·.number)).Nodup) {base : Cell}
    (hbase : IsLikeChain cells root chain base) (hmem : c ∈ cells)
    (hlike : c.like = some base.number) : c ∉ root :: chain := by
  intro hc
  obtain ⟨lower, hlower, hle⟩ := hbase.exists_lower hc
  have hsame := (hlower.unique hd (.like hbase hmem hlike) rfl).1
  rw [hsame, List.length_append, List.length_singleton] at hle
  omega

end IsLikeChain

theorem find?_number (hd : (cells.map (·.number)).Nodup) (hc : c ∈ cells) :
    cells.find? (fun x => x.number == c.number) = some c := by
  have hsome : (cells.find? fun x => x.number == c.number).isSome :=
    List.find?_isSome.mpr ⟨c, hc, beq_self_eq_true c.number⟩
  obtain ⟨x, hx⟩ := Option.isSome_iff_exists.mp hsome
  have hnumber : x.number = c.number := by simpa using List.find?_some hx
  rw [hx, List.inj_on_of_nodup_map hd (List.mem_of_find?_eq_some hx) hc hnumber]

/-- A chain that is found is the chain of a cell with the number that was asked for. -/
theorem isLikeChain_of_followLike {number : Nat}
    (h : followLike pool acc number = .complete chain root) :
    ∃ lower c, IsLikeChain pool root lower c ∧ c.number = number ∧ chain = lower ++ acc := by
  induction pool, acc, number using followLike.induct with
  | case1 pool acc number hfind hseen =>
    rw [followLike, hfind] at h
    simp [hseen] at h
  | case2 pool acc number hfind hseen =>
    rw [followLike, hfind] at h
    simp [hseen] at h
  | case3 pool acc number cell hfind hfull =>
    rw [followLike, hfind] at h
    simp only [hfull] at h
    obtain ⟨rfl, rfl⟩ := h
    have hnumber : root.number = number := by simpa using List.find?_some hfind
    exact ⟨[], root, .full (List.mem_of_find?_eq_some hfind) hfull, hnumber, rfl⟩
  | case4 pool acc number cell hfind base hlike ih =>
    rw [followLike, hfind] at h
    simp only [hlike] at h
    obtain ⟨lower, c, hchain, rfl, rfl⟩ := ih h
    have hsub : root :: lower ⊆ pool := fun _ hx => List.mem_of_mem_eraseP (hchain.subset hx)
    have hnumber : cell.number = number := by simpa using List.find?_some hfind
    exact ⟨lower ++ [cell], cell,
      .like (hchain.transfer hsub) (List.mem_of_find?_eq_some hfind) hlike, hnumber, by simp⟩

/-- Following the bases of a cell finds its chain, in any pool that still holds it. -/
theorem IsLikeChain.followLike_eq (h : IsLikeChain cells root chain c)
    (hd : (cells.map (·.number)).Nodup) (hpool : (pool.map (·.number)).Nodup)
    (hsub : root :: chain ⊆ pool) :
    followLike pool acc c.number = .complete (chain ++ acc) root := by
  induction h generalizing pool acc with
  | full _ hfull =>
    have hfind := find?_number hpool (hsub List.mem_cons_self)
    rw [followLike, hfind]
    simp [hfull]
  | @like lower base c hbase hmem hlike ih =>
    rw [← List.cons_append] at hsub
    have ⟨hbelow, hself⟩ := List.append_subset.mp hsub
    have hfind := find?_number hpool (hself List.mem_cons_self)
    have hrest : root :: lower ⊆ pool.eraseP fun x => x.number == c.number := by
      intro x hx
      refine (List.mem_eraseP_of_neg ?_).mpr (hbelow hx)
      intro hnumber
      have hsame := List.inj_on_of_nodup_map hd (hbase.subset hx) hmem (by simpa using hnumber)
      exact hbase.not_mem_base hd hmem hlike (hsame ▸ hx)
    rw [followLike, hfind]
    simp only [hlike]
    rw [ih (hpool.sublist (List.eraseP_sublist.map _)) hrest]
    simp

/-- Following the bases of a cell ends well exactly if it has a chain, and then finds this chain. -/
theorem followLike_complete_iff (hd : (cells.map (·.number)).Nodup) (hc : c ∈ cells) :
    followLike cells [] c.number = .complete chain root ↔ IsLikeChain cells root chain c := by
  constructor
  · intro h
    obtain ⟨lower, c', hchain, hnumber, rfl⟩ := isLikeChain_of_followLike h
    obtain rfl := List.inj_on_of_nodup_map hd hchain.mem hc hnumber
    rw [List.append_nil]
    exact hchain
  · intro h
    rw [h.followLike_eq hd hd h.subset, List.append_nil]

end TransportDeck
