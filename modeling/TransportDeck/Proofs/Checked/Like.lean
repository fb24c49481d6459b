import TransportDeck.Like
import TransportDeck.Proofs.Checked.Steps
import TransportDeck.Proofs.Table.Order

/-!
Cells written like another, step by step. The bases are looked up among the cells as written, which
never change; the numbers on the way are kept in a set of their own, so that the walk ends.
-/

namespace TransportDeck.Checked

def byNumber (cells : List Cell) : Table Nat Cell :=
  .ofList (cells.map fun c => (c.number, c)).reverse

/-- Where a walk along the bases stands. The cells on the way are listed from its start on. -/
structure Walk where
  chain : List Cell
  visited : Table Nat Unit
  current : Nat

namespace Walk

def turn (originals : Table Nat Cell) (w : Walk) : Option (LikeChain ⊕ Walk) :=
  match originals.find? w.current with
  | none => some (.inl (.missing w.current))
  | some cell =>
    match cell.like with
    | none => some (.inl (.complete w.chain.reverse cell))
    | some base =>
      if w.visited.contains w.current then
        some (.inl (.loop (w.chain.map (·.number) ++ [w.current])))
      else some (.inr ⟨w.chain ++ [cell], w.visited.insert w.current (), base⟩)

end Walk

noncomputable def followLike (originals : Table Nat Cell) (number : Nat) : Option LikeChain :=
  loop (Walk.turn originals) ⟨[], .empty, number⟩

noncomputable def expand (originals : Table Nat Cell) (c : Cell) : Option (Cell × List Diagnostic) :=
  match c.like with
  | none => some (c, [])
  | some _ => do
    match ← followLike originals c.number with
    | .complete chain root =>
      let (result, faults) := (chain.foldl Cell.overBase root).settle
      return (result,
        faults.map fun fault => CardIssue.report ⟨some s!"cell {c.number}", fault⟩ c.span)
    | .missing base => return (c, [(Finding.likeMissing c.number base).report c.span])
    | .loop chain => return (c, [(Finding.likeLoop c.number chain).report c.span])

noncomputable def expandLike (cells : List Cell) : Option (List Cell × List Diagnostic) := do
  let results ← cells.mapM (expand (byNumber cells))
  return (results.map (·.1), results.flatMap (·.2))

variable {cells above : List Cell} {n : Nat}

section Lookup

theorem find?_byNumber (hd : (cells.map (·.number)).Nodup) (n : Nat) :
    (byNumber cells).find? n = cells.find? fun c => c.number == n := by
  have hkeys : ((cells.map fun c => (c.number, c)).reverse.map (·.1)).Nodup := by
    simpa [Function.comp_def] using hd
  rw [byNumber, Table.find?_ofList]
  cases hfind : cells.find? fun c => c.number == n with
  | some c =>
    obtain rfl : c.number = n := by simpa using List.find?_some hfind
    have hc : (c.number, c) ∈ cells.map fun c => (c.number, c) :=
      List.mem_map_of_mem (List.mem_of_find?_eq_some hfind)
    exact lookup_of_mem hkeys (List.mem_reverse.mpr hc)
  | none =>
    refine Option.eq_none_iff_forall_ne_some.mpr fun c hc => ?_
    obtain ⟨e, he, hn⟩ := List.mem_map.mp (exists_lookup_iff.mp ⟨c, hc⟩)
    obtain ⟨other, hother, rfl⟩ := List.mem_map.mp (List.mem_reverse.mp he)
    exact List.find?_eq_none.mp hfind other hother (beq_iff_eq.mpr hn)

def unvisited (cells above : List Cell) : List Cell :=
  cells.filter fun c => !above.any fun a => a.number == c.number

theorem find?_unvisited (cells above : List Cell) (n : Nat) :
    ((unvisited cells above).find? fun c => c.number == n) =
      if above.any fun a => a.number == n then none else cells.find? fun c => c.number == n := by
  rw [unvisited, List.find?_filter]
  cases hseen : above.any fun a => a.number == n with
  | true =>
    refine List.find?_eq_none.mpr fun c _ => ?_
    by_cases hnumber : c.number = n <;> simp [hnumber, hseen]
  | false =>
    refine congrArg cells.find? (funext fun c => ?_)
    by_cases hnumber : c.number = n <;> simp [hnumber, hseen]

theorem found_of_unvisited {cell : Cell}
    (h : ((unvisited cells above).find? fun c => c.number == n) = some cell) :
    (above.any fun c => c.number == n) = false ∧ (cells.find? fun c => c.number == n) = some cell := by
  rw [find?_unvisited] at h
  split at h
  · cases h
  · next hseen => exact ⟨Bool.eq_false_iff.mpr hseen, h⟩

theorem eraseP_number {pool : List Cell} (hd : (pool.map (·.number)).Nodup) (n : Nat) :
    (pool.eraseP fun c => c.number == n) = pool.filter fun c => c.number != n := by
  induction pool with
  | nil => rfl
  | cons c pool ih =>
    obtain ⟨hnew, hrest⟩ := List.nodup_cons.mp hd
    by_cases hnumber : c.number = n
    · have hkeep : ∀ other ∈ pool, (other.number != n) = true := by
        intro other hother
        refine bne_iff_ne.mpr fun hsame => hnew ?_
        exact List.mem_map.mpr ⟨other, hother, hsame.trans hnumber.symm⟩
      simp [hnumber, List.filter_eq_self.mpr hkeep]
    · simp [hnumber, ih hrest]

/-- One more cell above is one cell less to come. -/
theorem unvisited_cons (hd : (cells.map (·.number)).Nodup) (above : List Cell) (cell : Cell) :
    unvisited cells (cell :: above) =
      (unvisited cells above).eraseP fun c => c.number == cell.number := by
  have hpool : ((unvisited cells above).map (·.number)).Nodup :=
    hd.sublist (List.filter_sublist.map _)
  rw [eraseP_number hpool, unvisited, unvisited, List.filter_filter]
  refine congrArg (List.filter · cells) (funext fun c => ?_)
  rw [List.any_cons, Bool.not_or, Bool.beq_comm]
  rfl

end Lookup

namespace Walk

/-- The cells above the current number, last first, are those of the walk. Each of them is found under
its number and has a base. -/
structure Tracks (cells above : List Cell) (w : Walk) : Prop where
  chain : w.chain.reverse = above
  visited : ∀ n, w.visited.contains n = above.any fun c => c.number == n
  based : ∀ c ∈ above, ∃ base, (cells.find? fun a => a.number == c.number) = some c ∧
    c.like = some base

variable {w : Walk}

theorem Tracks.next {cell : Cell} {base : Nat} (h : w.Tracks cells above)
    (hfind : (cells.find? fun c => c.number == w.current) = some cell)
    (hlike : cell.like = some base) :
    Tracks cells (cell :: above) ⟨w.chain ++ [cell], w.visited.insert w.current (), base⟩ where
  chain := by simp [h.chain]
  visited n := by
    have hnumber : cell.number = w.current := by simpa using List.find?_some hfind
    have hrest := h.visited n
    rw [Table.contains] at hrest ⊢
    rw [List.any_cons, hnumber, ← hrest]
    by_cases hn : n = w.current
    · simp [hn]
    · rw [Table.find?_insert_other _ hn, beq_false_of_ne (Ne.symm hn), Bool.false_or]
  based := by
    have hnumber : cell.number = w.current := by simpa using List.find?_some hfind
    exact List.forall_mem_cons.mpr ⟨⟨base, by rwa [hnumber], hlike⟩, h.based⟩

/-- The walk comes to the same end as following the bases through the cells that are left. -/
theorem Tracks.loop_eq (hd : (cells.map (·.number)).Nodup) (h : w.Tracks cells above) :
    loop (turn (byNumber cells)) w =
      some (TransportDeck.followLike (unvisited cells above) above w.current) := by
  generalize hpool : unvisited cells above = pool
  generalize hn : w.current = n
  induction pool, above, n using followLike.induct generalizing w with
  | case1 pool above n hfind hseen =>
    obtain ⟨c, hc, hnumber⟩ := List.any_eq_true.mp hseen
    obtain ⟨base, hfound, hlike⟩ := h.based c hc
    rw [beq_iff_eq.mp hnumber] at hfound
    have hvisited : w.visited.contains n = true := by rw [h.visited, hseen]
    have hnumbers : w.chain.map (·.number) = (above.map (·.number)).reverse := by
      rw [← h.chain, List.map_reverse, List.reverse_reverse]
    rw [loop_eq, turn, find?_byNumber hd, hn, hfound, TransportDeck.followLike, hfind]
    simp [hlike, hvisited, hseen, hnumbers]
  | case2 pool above n hfind hseen =>
    rw [← hpool, find?_unvisited, if_neg hseen] at hfind
    rw [loop_eq, turn, find?_byNumber hd, hn, hfind, TransportDeck.followLike, ← hpool,
      find?_unvisited, if_neg hseen, hfind]
    simp [hseen]
  | case3 pool above n cell hfind hfull =>
    obtain ⟨hseen, hfound⟩ := found_of_unvisited (hpool ▸ hfind)
    rw [loop_eq, turn, find?_byNumber hd, hn, hfound, TransportDeck.followLike, hfind]
    simp [hfull, h.chain]
  | case4 pool above n cell hfind base hlike ih =>
    obtain ⟨hseen, hfound⟩ := found_of_unvisited (hpool ▸ hfind)
    have hnew : w.visited.contains n = false := by rw [h.visited, hseen]
    have hnumber : cell.number = n := by simpa using List.find?_some hfound
    have hrest := unvisited_cons hd above cell
    rw [hpool, hnumber] at hrest
    have hnext := ih (h.next (hn ▸ hfound) hlike) hrest rfl
    rw [loop_eq, turn, find?_byNumber hd, hn, hfound, TransportDeck.followLike, hfind]
    simp only [hlike, hnew, Bool.false_eq_true, if_false]
    rw [← hn] at hnext ⊢
    exact hnext

end Walk

/-- The walk ends, as the numbers in its set are those of cells, and it ends as the bases do. -/
theorem followLike_eq (hd : (cells.map (·.number)).Nodup) (n : Nat) :
    followLike (byNumber cells) n = some (TransportDeck.followLike cells [] n) := by
  have hstart : Walk.Tracks cells [] ⟨[], .empty, n⟩ :=
    ⟨rfl, fun _ => rfl, fun _ hc => absurd hc List.not_mem_nil⟩
  have hall : unvisited cells [] = cells := List.filter_eq_self.mpr fun _ _ => rfl
  rw [followLike, hstart.loop_eq hd, hall]

theorem expand_eq (hd : (cells.map (·.number)).Nodup) (c : Cell) :
    expand (byNumber cells) c = some (c.expand cells) := by
  unfold expand Cell.expand
  cases c.like with
  | none => rfl
  | some base =>
    dsimp only
    rw [followLike_eq hd, Option.bind_eq_bind, Option.bind_some]
    cases TransportDeck.followLike cells [] c.number with
    | complete chain root =>
      dsimp only
      generalize (chain.foldl Cell.overBase root).settle = settled
      rfl
    | missing number => rfl
    | loop numbers => rfl

theorem expandLike_eq (hd : (cells.map (·.number)).Nodup) :
    expandLike cells = some (TransportDeck.expandLike cells) := by
  rw [expandLike, mapM_eq_some fun c _ => expand_eq hd c]
  rfl

end TransportDeck.Checked
