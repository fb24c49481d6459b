import TransportDeck.Proofs.Like.Expand

namespace TransportDeck

variable {cells cells' pool pool' : List Cell}

theorem find?_number_perm (hperm : pool.Perm pool') (hd : (pool.map (·.number)).Nodup)
    (number : Nat) :
    (pool.find? fun c => c.number == number) = pool'.find? fun c => c.number == number := by
  cases hfound : pool.find? fun c => c.number == number with
  | none =>
    rw [List.find?_eq_none] at hfound
    exact (List.find?_eq_none.mpr fun c hc => hfound c (hperm.mem_iff.mpr hc)).symm
  | some c =>
    have hmem : c ∈ pool' := hperm.mem_iff.mp (List.mem_of_find?_eq_some hfound)
    obtain rfl : c.number = number := by simpa using List.find?_some hfound
    exact (find?_number (hperm.map (·.number) |>.nodup hd) hmem).symm

/-- Without one of its cells a pool is still the same in another order. -/
theorem eraseP_number_perm (hperm : pool.Perm pool') (hd : (pool.map (·.number)).Nodup)
    (number : Nat) :
    (pool.eraseP fun c => c.number == number).Perm (pool'.eraseP fun c => c.number == number) := by
  apply List.Perm.eraseP _ _ hperm
  refine (List.pairwise_map.mp hd).imp fun hne hc hc' => hne ?_
  rw [beq_iff_eq] at hc hc'
  rw [hc, hc']

/-- Bases lead the same way whatever the order of the cells. -/
theorem followLike_perm (hperm : pool.Perm pool') (hd : (pool.map (·.number)).Nodup)
    (chain : List Cell) (number : Nat) :
    followLike pool chain number = followLike pool' chain number := by
  -- a cell that was followed leaves both pools, which stay the same in another order
  induction pool, chain, number using followLike.induct generalizing pool' with
  | case1 pool chain number hfind hseen =>
    have hfind' := find?_number_perm hperm hd number
    rw [followLike, hfind, followLike, ← hfind', hfind]
  | case2 pool chain number hfind hseen =>
    have hfind' := find?_number_perm hperm hd number
    rw [followLike, hfind, followLike, ← hfind', hfind]
  | case3 pool chain number cell hfind hfull =>
    have hfind' := find?_number_perm hperm hd number
    rw [followLike, hfind, followLike, ← hfind', hfind]
    simp only [hfull]
  | case4 pool chain number cell hfind base hlike ih =>
    have hfind' := find?_number_perm hperm hd number
    have hrest := ih (eraseP_number_perm hperm hd number) (hd.sublist (List.eraseP_sublist.map _))
    rw [followLike, hfind, followLike, ← hfind', hfind]
    simp only [hlike]
    exact hrest

theorem Cell.expand_perm (hperm : cells.Perm cells') (hd : (cells.map (·.number)).Nodup) (c : Cell) :
    c.expand cells = c.expand cells' := by
  rw [expand, expand, followLike_perm hperm hd]

end TransportDeck
