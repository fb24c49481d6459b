import TransportDeck.Proofs.Card.Params
import TransportDeck.Proofs.Checked.Steps
import TransportDeck.Proofs.FillGraph.Fills
import TransportDeck.Proofs.Table.Order

namespace TransportDeck

open Number

namespace Checked

def unsigned? (n : Int) : Option Nat := word32? n.natAbs

def universeId (c : Cell) : Option Nat := unsigned? (c.params.signedUniverse.getD 0)

def targets : Fill → Option (List Nat)
  | .simple u _ => do return [← unsigned? u]
  | .array a => a.entries.mapM fun e => unsigned? e.signedUniverse

def fillTargets (c : Cell) : Option (List Nat) :=
  match c.params.fill with
  | some f => targets f
  | none => some []

def placements (c : Cell) : Option (List Nat) := do
  let owner ← universeId c
  let filled ← fillTargets c
  if (c.params.fill.bind Fill.array?).isSome then return filled.filter (· != owner)
  else return filled

def countOne (counts : Table Nat Nat) (v : Nat) : Option (Table Nat Nat) := do
  return counts.insert v (← add? ((counts.find? v).getD 0) 1)

def addPlacement (owner : Nat) (fills : Table Nat (Table Nat Nat)) (v : Nat) :
    Option (Table Nat (Table Nat Nat)) := do
  return fills.insert owner (← countOne ((fills.find? owner).getD .empty) v)

def addFill (fills : Table Nat (Table Nat Nat)) (c : Cell) :
    Option (Table Nat (Table Nat Nat)) := do
  (← placements c).foldlM (addPlacement (← universeId c)) fills

def fillGraph (d : Deck) : Option FillGraph := do
  let named ← d.cells.mapM fun c => do return (← universeId c) :: (← fillTargets c)
  return { universes := sortDistinct (0 :: named.flatten), fills := ← d.cells.foldlM addFill .empty }

section Words

theorem natAbs_le {n : Int} (h : fitsInt32 n = true) : n.natAbs ≤ 4294967295 := by
  simp only [fitsInt32, Bool.and_eq_true, decide_eq_true_eq] at h
  omega

theorem unsigned?_eq {n : Int} (h : fitsInt32 n = true) : unsigned? n = some n.natAbs :=
  word32?_eq (natAbs_le h)

variable {c : Cell}

theorem fits_owner (h : c.params.IsWord) : fitsInt32 (c.params.signedUniverse.getD 0) = true := by
  cases hu : c.params.signedUniverse with
  | none => rfl
  | some u => exact h.owner u hu

theorem universeId_eq (h : c.params.IsWord) : universeId c = some c.universeId :=
  unsigned?_eq (fits_owner h)

theorem targets_eq {f : Fill} (h : f.IsWord) : targets f = some f.targets := by
  cases f with
  | simple u transform => rw [targets, unsigned?_eq h]; rfl
  | array a => exact mapM_eq_some fun e he => unsigned?_eq (h.1 e he)

theorem fillTargets_le (h : c.params.IsWord) {u : Nat} (hu : u ∈ FillGraph.fillTargets c) :
    u ≤ 4294967295 := by
  unfold FillGraph.fillTargets at hu
  cases hf : c.params.fill with
  | none => simp [hf] at hu
  | some f =>
    have hfill := h.fill f hf
    simp only [hf] at hu
    cases f with
    | simple v transform =>
      obtain rfl := List.mem_singleton.mp hu
      exact natAbs_le hfill
    | array a =>
      obtain ⟨e, he, rfl⟩ := List.mem_map.mp hu
      exact natAbs_le (hfill.1 e he)

theorem fillTargets_eq (h : c.params.IsWord) : fillTargets c = some (FillGraph.fillTargets c) := by
  unfold fillTargets FillGraph.fillTargets
  cases hf : c.params.fill with
  | none => rfl
  | some f => exact targets_eq (h.fill f hf)

theorem placements_eq (h : c.params.IsWord) : placements c = some c.placements := by
  rw [placements, universeId_eq h, fillTargets_eq h, Cell.placements, FillGraph.fillTargets]
  rcases hf : c.params.fill with _ | f
  · rfl
  · cases f <;> rfl

end Words

section Counts

def tally (pairs : List (Nat × Nat)) : Table Nat (Table Nat Nat) :=
  tabulate (pairs.map (·.1)) fun u => FillGraph.countEach ((pairs.filter (·.1 == u)).map (·.2))

theorem countOne_countEach {vs : List Nat} (h : vs.length < maxWord) (v : Nat) :
    countOne (FillGraph.countEach vs) v = some (FillGraph.countEach (vs ++ [v])) := by
  have hcount : ((FillGraph.countEach vs).find? v).getD 0 = vs.count v := by
    rw [FillGraph.find?_countEach]
    split
    · rfl
    · next hv => exact (List.count_eq_zero.mpr hv).symm
  have hle : vs.count v ≤ vs.length := List.count_le_length
  have hadd : add? (vs.count v) 1 = some (vs.count v + 1) := add?_eq (by omega)
  rw [countOne, hcount, hadd]
  refine congrArg some (Table.ext_find? fun w => ?_)
  rw [FillGraph.find?_countEach]
  by_cases hw : w = v
  · subst hw
    rw [Table.find?_insert_same, if_pos (by simp)]
    simp
  · rw [Table.find?_insert_other _ hw, FillGraph.find?_countEach]
    have hcount' : (vs ++ [v]).count w = vs.count w := by
      rw [List.count_append, List.count_singleton, if_neg (by simpa using Ne.symm hw), Nat.add_zero]
    simp [hw, hcount']

theorem find?_tally (pairs : List (Nat × Nat)) (u : Nat) :
    ((tally pairs).find? u).getD .empty =
      FillGraph.countEach ((pairs.filter (·.1 == u)).map (·.2)) := by
  by_cases hu : u ∈ pairs.map (·.1)
  · rw [tally, find?_tabulate _ hu]
    rfl
  · have hnone : pairs.filter (·.1 == u) = [] := by
      refine List.filter_eq_nil_iff.mpr fun e he => ?_
      simp only [beq_iff_eq]
      rintro rfl
      exact hu (List.mem_map_of_mem he)
    rw [tally, find?_tabulate_of_not_mem _ hu, hnone]
    rfl

theorem addPlacement_tally {pairs : List (Nat × Nat)} (h : pairs.length < maxWord) (u v : Nat) :
    addPlacement u (tally pairs) v = some (tally (pairs ++ [(u, v)])) := by
  have hlength : ((pairs.filter (·.1 == u)).map (·.2)).length < maxWord := by
    rw [List.length_map]
    exact Nat.lt_of_le_of_lt (List.length_filter_le _ _) h
  rw [addPlacement, find?_tally, countOne_countEach hlength]
  refine congrArg some (Table.ext_find? fun w => ?_)
  by_cases hw : w = u
  · subst hw
    rw [Table.find?_insert_same, tally, find?_tabulate _ (by simp)]
    simp
  · have hfilter : (pairs ++ [(u, v)]).filter (·.1 == w) = pairs.filter (·.1 == w) := by
      simp [Ne.symm hw]
    rw [Table.find?_insert_other _ hw]
    by_cases hmem : w ∈ pairs.map (·.1)
    · rw [tally, tally, find?_tabulate _ hmem, find?_tabulate _ (by simp at hmem ⊢; exact .inl hmem),
        hfilter]
    · rw [tally, tally, find?_tabulate_of_not_mem _ hmem,
        find?_tabulate_of_not_mem _ (by simpa [hw] using hmem)]

def placementPairs (c : Cell) : List (Nat × Nat) := c.placements.map fun v => (c.universeId, v)

theorem foldlM_addPlacement {pairs : List (Nat × Nat)} (u : Nat) {vs : List Nat}
    (h : pairs.length + vs.length < lengthLimit) :
    vs.foldlM (addPlacement u) (tally pairs) = some (tally (pairs ++ vs.map fun v => (u, v))) := by
  induction vs generalizing pairs with
  | nil => simp
  | cons v vs ih =>
    rw [List.length_cons] at h
    have hpairs : pairs.length < maxWord := by
      simp only [lengthLimit, maxWord] at *
      omega
    rw [List.foldlM_cons, addPlacement_tally hpairs, Option.bind_eq_bind, Option.bind_some,
      ih (by rw [List.length_append, List.length_singleton]; omega), List.append_assoc]
    rfl

theorem foldlM_addFill {pairs : List (Nat × Nat)} {cells : List Cell}
    (hwords : ∀ c ∈ cells, c.params.IsWord)
    (h : pairs.length + (cells.flatMap placementPairs).length < lengthLimit) :
    cells.foldlM addFill (tally pairs) = some (tally (pairs ++ cells.flatMap placementPairs)) := by
  induction cells generalizing pairs with
  | nil => simp
  | cons c cells ih =>
    have hc := hwords c List.mem_cons_self
    have hrest : ∀ c ∈ cells, c.params.IsWord := fun b hb => hwords b (List.mem_cons_of_mem c hb)
    rw [List.flatMap_cons, List.length_append] at h
    have hplaced : (placementPairs c).length = c.placements.length := List.length_map _
    have hfill : addFill (tally pairs) c = some (tally (pairs ++ placementPairs c)) := by
      rw [addFill, placements_eq hc, universeId_eq hc]
      exact foldlM_addPlacement c.universeId (by omega)
    rw [List.foldlM_cons, hfill, Option.bind_eq_bind, Option.bind_some,
      ih hrest (by rw [List.length_append]; omega), List.append_assoc, List.flatMap_cons]

/-- Counting placement by placement gives the table of the graph. -/
theorem tally_placementPairs (d : Deck) :
    tally (d.cells.flatMap placementPairs) = (FillGraph.ofDeck d).fills := by
  unfold tally FillGraph.ofDeck
  dsimp only
  refine tabulate_congr (fun u => ?_) fun u => ?_
  · simp only [List.mem_map, List.mem_flatMap, placementPairs, List.mem_filter]
    constructor
    · rintro ⟨_, ⟨c, hc, v, hv, rfl⟩, rfl⟩
      refine ⟨c, ⟨hc, ?_⟩, rfl⟩
      simpa [List.isEmpty_iff] using List.ne_nil_of_mem hv
    · rintro ⟨c, ⟨hc, hne⟩, rfl⟩
      obtain ⟨v, hv⟩ := List.exists_mem_of_ne_nil c.placements (by simpa using hne)
      exact ⟨_, ⟨c, hc, v, hv, rfl⟩, rfl⟩
  · congr 1
    rw [FillGraph.placementsIn]
    induction d.cells with
    | nil => rfl
    | cons c cells ih =>
      rw [List.flatMap_cons, List.filter_append, List.map_append, ih, List.filter_cons]
      by_cases hu : c.universeId = u
      · subst hu
        have hall : (placementPairs c).filter (·.1 == c.universeId) = placementPairs c :=
          List.filter_eq_self.mpr fun e he => by
            obtain ⟨v, _, rfl⟩ := List.mem_map.mp he
            exact beq_self_eq_true _
        rw [hall, placementPairs, List.map_map, if_pos (by simp), List.flatMap_cons]
        exact congrArg (· ++ _) (List.map_id _)
      · simp [placementPairs, hu]

theorem placements_sublist (c : Cell) : c.placements.Sublist (FillGraph.fillTargets c) := by
  unfold Cell.placements FillGraph.fillTargets
  rcases c.params.fill with _ | f
  · exact List.Sublist.refl _
  · cases f with
    | simple u transform => exact List.Sublist.refl _
    | array a => exact List.filter_sublist

theorem fillGraph_eq {d : Deck} (hwords : ∀ c ∈ d.cells, c.params.IsWord)
    (h : (d.cells.flatMap FillGraph.fillTargets).length < lengthLimit) :
    fillGraph d = some (FillGraph.ofDeck d) := by
  have hnamed : (d.cells.mapM fun c => do return (← universeId c) :: (← fillTargets c)) =
      some (d.cells.map fun c => c.universeId :: FillGraph.fillTargets c) :=
    mapM_eq_some fun c hc => by rw [universeId_eq (hwords c hc), fillTargets_eq (hwords c hc)]; rfl
  have hpairs : (d.cells.flatMap placementPairs).length < lengthLimit := by
    refine Nat.lt_of_le_of_lt ?_ h
    rw [List.length_flatMap, List.length_flatMap]
    refine List.sum_le_sum fun c _ => ?_
    rw [placementPairs, List.length_map]
    exact (placements_sublist c).length_le
  have hfills : d.cells.foldlM addFill .empty = some (FillGraph.ofDeck d).fills := by
    have hfold := @foldlM_addFill [] d.cells hwords (by simpa using hpairs)
    rwa [List.nil_append, tally_placementPairs] at hfold
  rw [fillGraph, hnamed, Option.bind_eq_bind, Option.bind_some, hfills]
  rfl

end Counts

end Checked

end TransportDeck
