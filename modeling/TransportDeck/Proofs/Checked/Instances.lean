import TransportDeck.Proofs.Checked.Universes
import TransportDeck.Proofs.FillGraph.Balance

namespace TransportDeck.Checked

open FillGraph

/-- The largest count stands for every count above it. -/
def saturate (n : Nat) : Nat := min maxInstances n

/-- Universes with the owners that have not passed anything on yet, the universes that are ready in
ascending order, and the instances so far. -/
structure Placing where
  owners : Table Nat Nat
  ready : List Nat
  instances : Table Nat Nat

def Placing.count (s : Placing) (v : Nat) : Nat := (s.instances.find? v).getD 0

def place (count : Nat) (s : Placing) (e : Nat × Nat) : Option Placing := do
  let placed := saturate (s.count e.1 + saturate (count * e.2))
  let instances := s.instances.insert e.1 placed
  match s.owners.find? e.1 with
  | none => return { s with instances }
  | some n => do
    let n ← sub? n 1
    let ready := if n = 0 then sortDistinct (e.1 :: s.ready) else s.ready
    return { owners := s.owners.insert e.1 n, ready, instances }

def placeTurn (g : FillGraph) (s : Placing) : Option (Table Nat Nat ⊕ Placing) :=
  match s.ready with
  | [] => some (.inl s.instances)
  | u :: ready => do
    return .inr (← (g.children u).foldlM (place (s.count u)) { s with ready })

noncomputable def placeAll (g : FillGraph) (s : Placing) : Option (Table Nat Nat) :=
  loop (placeTurn g) s

def owners (g : FillGraph) : Option (Table Nat Nat) :=
  (g.fills.values.flatMap Table.keys).foldlM countOne (tabulate g.universes fun _ => 0)

def retain (depth t : Table Nat Nat) : Table Nat Nat :=
  .ofList (t.entries.filter fun e => depth.contains e.1)

noncomputable def instances (g : FillGraph) (depth : Table Nat Nat) : Option (Table Nat Nat) := do
  let owners ← owners g
  let ready := (owners.entries.filter fun e => e.2 == 0).map (·.1)
  return retain depth (← placeAll g { owners, ready, instances := .ofList [(0, 1)] })

variable {g : FillGraph}

section Place

variable {count : Nat} {s t : Placing} {cs : List (Nat × Nat)} {w : Nat}

structure Placed (count : Nat) (cs : List (Nat × Nat)) (s t : Placing) : Prop where
  owners : ∀ w, t.owners.find? w =
    if w ∈ cs.map (·.1) then (s.owners.find? w).map (· - 1) else s.owners.find? w
  ready : ∀ w, w ∈ t.ready ↔ w ∈ s.ready ∨ w ∈ cs.map (·.1) ∧ s.owners.find? w = some 1
  ready_nodup : s.ready.Nodup → t.ready.Nodup
  instances : ∀ w, t.instances.find? w = if w ∈ cs.map (·.1) then
    some (saturate (s.count w + saturate (count * totalAt cs w))) else s.instances.find? w

theorem place_eq {e : Nat × Nat} {n : Nat} (h : s.owners.find? e.1 = some (n + 1)) :
    ∃ t, place count s e = some t ∧ Placed count [e] s t := by
  have hsub : sub? (n + 1) 1 = some n := sub?_eq (Nat.le_add_left 1 n)
  refine ⟨{ owners := s.owners.insert e.1 n
            ready := if n = 0 then sortDistinct (e.1 :: s.ready) else s.ready
            instances := s.instances.insert e.1 (saturate (s.count e.1 + saturate (count * e.2))) },
    by simp only [place, h, hsub, Option.bind_eq_bind, Option.bind_some, Option.pure_def], ?_⟩
  have htotal (w : Nat) : totalAt [e] w = if e.1 = w then e.2 else 0 := totalAt_cons e [] w
  refine ⟨fun w => ?_, fun w => ?_, fun hready => ?_, fun w => ?_⟩
  · by_cases hw : w = e.1
    · simp [hw, h]
    · simp [hw, Table.find?_insert_other _ hw]
  · by_cases hn : n = 0
    · by_cases hw : w = e.1 <;> simp [hn, hw, h]
    · by_cases hw : w = e.1 <;> simp [hn, hw, h]
  · dsimp only
    split
    · exact (pairwise_sortDistinct _).imp Nat.ne_of_lt
    · exact hready
  · by_cases hw : w = e.1
    · simp [hw, htotal]
    · simp [hw, Table.find?_insert_other _ hw]

theorem Placed.count_other (h : Placed count cs s t) (hw : w ∉ cs.map (·.1)) :
    t.count w = s.count w := by
  rw [Placing.count, h.instances, if_neg hw, Placing.count]

theorem Placed.mem_keys_iff (h : Placed count cs s t) :
    w ∈ t.instances.keys ↔ w ∈ cs.map (·.1) ∨ w ∈ s.instances.keys := by
  rw [Table.mem_keys_iff, h.instances]
  by_cases hw : w ∈ cs.map (·.1)
  · rw [if_pos hw]
    exact iff_of_true ⟨_, rfl⟩ (.inl hw)
  · rw [if_neg hw, or_iff_right hw, Table.mem_keys_iff]

theorem Placed.count_le (h : Placed count cs s t) (hs : s.count w ≤ maxInstances) :
    t.count w ≤ maxInstances := by
  by_cases hw : w ∈ cs.map (·.1)
  · rw [Placing.count, h.instances, if_pos hw]
    exact Nat.min_le_left _ _
  · rw [h.count_other hw]
    exact hs

/-- Up to the largest count, each universe has what it had and what has been passed on to it. -/
theorem Placed.sameCount (h : Placed count cs s t) (w : Nat) :
    SameCount (t.count w) (s.count w + count * totalAt cs w) := by
  by_cases hw : w ∈ cs.map (·.1)
  · rw [Placing.count, h.instances, if_pos hw]
    exact (SameCount.cut_off _).trans (SameCount.add rfl (.cut_off _))
  · rw [h.count_other hw, totalAt_eq_zero hw]
    rfl

/-- Passing instances on to a universe leaves the others as they are. -/
theorem Placed.cons {e : Nat × Nat} {r : Placing} (hfirst : Placed count [e] s r)
    (hrest : Placed count cs r t) (he : e.1 ∉ cs.map (·.1)) : Placed count (e :: cs) s t := by
  have hother : ∀ w ∈ cs.map (·.1), w ∉ [e].map (·.1) := by
    intro w hw hmem
    obtain rfl : w = e.1 := by simpa using hmem
    exact he hw
  have hkeys (w : Nat) : w ∈ (e :: cs).map (·.1) ↔ w ∈ [e].map (·.1) ∨ w ∈ cs.map (·.1) := by
    simp
  refine ⟨fun w => ?_, fun w => ?_, fun hready => hrest.ready_nodup (hfirst.ready_nodup hready),
    fun w => ?_⟩
  · rw [hrest.owners, hfirst.owners]
    by_cases hw : w ∈ cs.map (·.1)
    · rw [if_pos hw, if_neg (hother w hw), if_pos ((hkeys w).mpr (.inr hw))]
    · rw [if_neg hw]
      exact if_congr (by rw [hkeys, or_iff_left hw]) rfl rfl
  · rw [hrest.ready, hfirst.ready, hfirst.owners, hkeys]
    by_cases hw : w ∈ cs.map (·.1)
    · simp only [hw, hother w hw]
      simp
    · simp only [hw, or_false, false_and]
  · rw [hrest.instances]
    by_cases hw : w ∈ cs.map (·.1)
    · have hne : e.1 ≠ w := fun heq => he (heq ▸ hw)
      rw [if_pos hw, if_pos ((hkeys w).mpr (.inr hw)), hfirst.count_other (hother w hw), totalAt_cons,
        if_neg hne, Nat.zero_add]
    · rw [if_neg hw, hfirst.instances, totalAt_cons e cs, totalAt_eq_zero hw, totalAt_cons e [],
        totalAt_eq_zero List.not_mem_nil]
      exact if_congr (by rw [hkeys, or_iff_left hw]) rfl rfl

theorem foldlM_place (hnodup : (cs.map (·.1)).Nodup)
    (howners : ∀ w ∈ cs.map (·.1), ∃ n, s.owners.find? w = some (n + 1)) :
    ∃ t, cs.foldlM (place count) s = some t ∧ Placed count cs s t := by
  induction cs generalizing s with
  | nil => exact ⟨s, rfl, by simp, by simp, id, by simp⟩
  | cons e cs ih =>
    obtain ⟨he, hnodup⟩ := List.nodup_cons.mp hnodup
    obtain ⟨n, hn⟩ := howners e.1 List.mem_cons_self
    obtain ⟨r, hrun, hfirst⟩ := @place_eq count s e n hn
    have hrest : ∀ w ∈ cs.map (·.1), ∃ n, r.owners.find? w = some (n + 1) := by
      intro w hw
      have hother : w ∉ [e].map (·.1) := fun hmem => he (by simp_all)
      rw [hfirst.owners, if_neg hother]
      exact howners w (List.mem_cons_of_mem _ hw)
    obtain ⟨t, hruns, ht⟩ := ih hnodup hrest
    refine ⟨t, ?_, hfirst.cons ht he⟩
    rw [List.foldlM_cons, hrun]
    exact hruns

end Place

section Owners

variable {v : Nat}

/-- The owners of `v` that are not among those that have passed their instances on. -/
def ownersLeft (g : FillGraph) (done : Finset Nat) (v : Nat) : Finset Nat :=
  (g.universes.toFinset \ done).filter fun u => v ∈ g.targets u

theorem mem_ownersLeft (hg : g.WellFormed) {done : Finset Nat} {u : Nat} :
    u ∈ ownersLeft g done v ↔ g.Fills u v ∧ u ∉ done := by
  simp only [ownersLeft, Finset.mem_filter, Finset.mem_sdiff, List.mem_toFinset]
  constructor
  · rintro ⟨⟨_, hdone⟩, hfill⟩
    exact ⟨hfill, hdone⟩
  · rintro ⟨hfill, hdone⟩
    exact ⟨⟨hg.owner_mem hfill, hdone⟩, hfill⟩

/-- An owner that passes its instances on is not left any more. -/
theorem ownersLeft_insert (hg : g.WellFormed) (done : Finset Nat) (u : Nat) :
    ownersLeft g (insert u done) v = (ownersLeft g done v).erase u := by
  ext w
  simp only [Finset.mem_erase, mem_ownersLeft hg, Finset.mem_insert]
  tauto

/-- The owner that passes its instances on is the only one left if all the others have done so. -/
theorem card_ownersLeft_eq_one_iff (hg : g.WellFormed) {done : Finset Nat} {u : Nat}
    (hfill : g.Fills u v) (hu : u ∉ done) :
    (ownersLeft g done v).card = 1 ↔ ∀ w, g.Fills w v → w ∈ insert u done := by
  have hmem : u ∈ ownersLeft g done v := (mem_ownersLeft hg).mpr ⟨hfill, hu⟩
  rw [Finset.card_eq_one]
  constructor
  · rintro ⟨w, hw⟩ x hx
    obtain rfl : u = w := Finset.mem_singleton.mp (hw ▸ hmem)
    by_cases hdone : x ∈ done
    · exact Finset.mem_insert_of_mem hdone
    · have hlast := (mem_ownersLeft hg).mpr ⟨hx, hdone⟩
      rw [hw, Finset.mem_singleton] at hlast
      exact Finset.mem_insert.mpr (.inl hlast)
  · intro howners
    refine ⟨u, Finset.eq_singleton_iff_unique_mem.mpr ⟨hmem, fun w hw => ?_⟩⟩
    obtain ⟨hw, hdone⟩ := (mem_ownersLeft hg).mp hw
    exact (Finset.mem_insert.mp (howners w hw)).resolve_right hdone

theorem foldlM_countOne {counts : Table Nat Nat} {vs : List Nat}
    (h : ∀ v, (counts.find? v).getD 0 + vs.count v ≤ maxWord) :
    ∃ t, vs.foldlM countOne counts = some t ∧ ∀ v, t.find? v =
      if v ∈ vs then some ((counts.find? v).getD 0 + vs.count v) else counts.find? v := by
  induction vs generalizing counts with
  | nil => exact ⟨counts, rfl, by simp⟩
  | cons w vs ih =>
    have hadd : add? ((counts.find? w).getD 0) 1 = some ((counts.find? w).getD 0 + 1) := by
      refine add?_eq (Nat.le_trans ?_ (h w))
      rw [List.count_cons_self]
      omega
    have hfirst (v : Nat) : ((counts.insert w ((counts.find? w).getD 0 + 1)).find? v).getD 0 +
        vs.count v = (counts.find? v).getD 0 + (w :: vs).count v := by
      by_cases hv : v = w
      · subst hv
        rw [Table.find?_insert_same, List.count_cons_self, Option.getD_some]
        omega
      · rw [Table.find?_insert_other _ hv, List.count_cons_of_ne (Ne.symm hv)]
    obtain ⟨t, hrun, ht⟩ := @ih (counts.insert w ((counts.find? w).getD 0 + 1)) fun v => by
      rw [hfirst]
      exact h v
    refine ⟨t, ?_, fun v => ?_⟩
    · rw [List.foldlM_cons, countOne, hadd]
      exact hrun
    · rw [ht, hfirst]
      by_cases hmem : v ∈ vs
      · rw [if_pos hmem, if_pos (List.mem_cons_of_mem w hmem)]
      · by_cases hv : v = w
        · subst hv
          rw [if_neg hmem, if_pos List.mem_cons_self, Table.find?_insert_same,
            List.count_cons_self, List.count_eq_zero.mpr hmem]
        · rw [if_neg hmem, if_neg (by simp [hv, hmem]), Table.find?_insert_other _ hv]

/-- A universe is a target once for each of its owners. -/
theorem count_targets (hg : g.WellFormed) (v : Nat) :
    (g.fills.values.flatMap Table.keys).count v = (ownersLeft g ∅ v).card := by
  have htargets : ∀ e ∈ g.fills.entries, e.2.keys = g.targets e.1 := by
    intro e he
    rw [targets_eq_keys, Table.find?_eq_some_iff_mem.mpr he]
  have hcount (entries : List (Nat × Table Nat Nat)) :
      ((entries.map (·.2)).flatMap Table.keys).count v =
        ((entries.filter fun e => v ∈ e.2.keys).map (·.1)).length := by
    induction entries with
    | nil => rfl
    | cons e entries ih =>
      rw [List.map_cons, List.flatMap_cons, List.count_append, ih, e.2.nodup_keys.count,
        List.filter_cons]
      by_cases hv : v ∈ e.2.keys
      · simp [hv, Nat.add_comm]
      · simp [hv]
  have hnodup : ((g.fills.entries.filter fun e => v ∈ e.2.keys).map (·.1)).Nodup :=
    (Table.nodup_keys g.fills).sublist (List.filter_sublist.map _)
  rw [Table.values, hcount, ← List.toFinset_card_of_nodup hnodup]
  congr 1
  ext u
  rw [mem_ownersLeft hg, List.mem_toFinset, List.mem_map]
  constructor
  · rintro ⟨e, he, rfl⟩
    obtain ⟨he, hv⟩ := List.mem_filter.mp he
    rw [decide_eq_true_eq, htargets e he] at hv
    exact ⟨hv, Finset.notMem_empty _⟩
  · rintro ⟨hfill, -⟩
    have hrow := hfill
    rw [Fills, targets_eq_keys] at hrow
    cases hfind : g.fills.find? u with
    | none =>
      rw [hfind] at hrow
      exact absurd hrow List.not_mem_nil
    | some counts =>
      rw [hfind] at hrow
      exact ⟨(u, counts), List.mem_filter.mpr
        ⟨Table.find?_eq_some_iff_mem.mp hfind, decide_eq_true hrow⟩, rfl⟩

theorem owners_eq (hg : g.WellFormed) (hsize : g.universes.length < maxWord) :
    ∃ t, owners g = some t ∧ ∀ v, t.find? v =
      if v ∈ g.universes then some (ownersLeft g ∅ v).card else none := by
  have hstart (v : Nat) : (tabulate g.universes fun _ => 0).find? v =
      if v ∈ g.universes then some 0 else none := by
    split
    · next hv => exact find?_tabulate _ hv
    · next hv => exact find?_tabulate_of_not_mem _ hv
  have hzero (v : Nat) : ((tabulate g.universes fun _ => 0).find? v).getD 0 = 0 := by
    rw [hstart]
    split <;> rfl
  obtain ⟨t, hrun, ht⟩ := @foldlM_countOne (tabulate g.universes fun _ => 0)
    (g.fills.values.flatMap Table.keys) fun v => by
      have hle : (ownersLeft g ∅ v).card ≤ g.universes.length :=
        calc (ownersLeft g ∅ v).card
            ≤ (g.universes.toFinset \ ∅).card := Finset.card_filter_le _ _
          _ ≤ g.universes.toFinset.card := Finset.card_le_card Finset.sdiff_subset
          _ ≤ g.universes.length := List.toFinset_card_le _
      rw [hzero, count_targets hg]
      omega
  refine ⟨t, hrun, fun v => ?_⟩
  rw [ht, hzero, hstart, count_targets hg, Nat.zero_add]
  by_cases hv : v ∈ g.universes
  · simp only [if_pos hv]
    split
    · rfl
    · next hnone => rw [← count_targets hg, List.count_eq_zero.mpr hnone]
  · simp only [if_neg hv]
    refine if_neg fun hmem => ?_
    rw [← List.count_pos_iff, count_targets hg, Finset.card_pos] at hmem
    obtain ⟨u, hu⟩ := hmem
    exact hv (hg.filled_mem ((mem_ownersLeft hg).mp hu).1)

end Owners

section Run

variable {s t : Placing} {done : Finset Nat} {u : Nat} {ready : List Nat}

/-- Where the universes of `done` have passed their instances on, each of them after its owners. -/
structure Placing.Tracks (g : FillGraph) (s : Placing) (done : Finset Nat) : Prop where
  owners_done : ∀ v ∈ done, ∀ u, g.Fills u v → u ∈ done
  owners : ∀ v ∈ g.universes, s.owners.find? v = some (ownersLeft g done v).card
  ready : ∀ v, v ∈ s.ready ↔ v ∈ g.universes ∧ v ∉ done ∧ ∀ u, g.Fills u v → u ∈ done
  ready_nodup : s.ready.Nodup
  keys : ∀ v, v ∈ s.instances.keys ↔ v = 0 ∨ ∃ u ∈ done, g.Fills u v
  capped : ∀ v, s.count v ≤ maxInstances
  balance : ∀ v, SameCount (s.count v)
    ((if v = 0 then 1 else 0) + ∑ u ∈ done, s.count u * g.placed u v)

/-- A universe that is ready stands in none that are. -/
theorem Placing.Tracks.not_fills (h : s.Tracks g done) (hu : u ∈ s.ready) {v : Nat}
    (hv : v = u ∨ v ∈ done) : ¬ g.Fills u v := by
  obtain ⟨_, hnot, howners⟩ := (h.ready u).mp hu
  intro hfill
  rcases hv with rfl | hv
  · exact hnot (howners v hfill)
  · exact hnot (h.owners_done v hv u hfill)

theorem Placing.Tracks.start (hg : g.WellFormed) {t : Table Nat Nat}
    (ht : ∀ v, t.find? v = if v ∈ g.universes then some (ownersLeft g ∅ v).card else none) :
    Placing.Tracks g ⟨t, (t.entries.filter fun e => e.2 == 0).map (·.1), .ofList [(0, 1)]⟩ ∅ := by
  have hcount (v : Nat) : ((Table.ofList [(0, 1)]).find? v).getD 0 = if v = 0 then 1 else 0 := by
    cases v <;> rfl
  refine ⟨fun v hv => absurd hv (Finset.notMem_empty v), fun v hv => ?_, fun v => ?_, ?_, fun v => ?_,
    fun v => ?_, fun v => ?_⟩
  · rw [ht, if_pos hv]
  · have hzero : v ∈ (t.entries.filter fun e => e.2 == 0).map (·.1) ↔ t.find? v = some 0 := by
      rw [Table.find?_eq_some_iff_mem]
      simp
    rw [hzero, ht]
    simp only [Option.ite_none_right_eq_some, Option.some.injEq, Finset.card_eq_zero,
      Finset.eq_empty_iff_forall_notMem, mem_ownersLeft hg]
    simp
  · exact (Table.nodup_keys t).sublist (List.filter_sublist.map _)
  · simp [Table.keys, Table.ofList, Table.insert, insertEntry, Table.empty]
  · rw [Placing.count, hcount]
    split <;> decide
  · rw [Placing.count, hcount, Finset.sum_empty, Nat.add_zero]
    rfl

/-- Those are ready afterwards that were ready next to the first universe, and those whose last owner it
was. -/
theorem Placing.Tracks.mem_ready_next (hg : g.WellFormed) (h : s.Tracks g done)
    (hready : s.ready = u :: ready) (ht : Placed (s.count u) (g.children u) { s with ready } t)
    (v : Nat) :
    v ∈ t.ready ↔ v ∈ g.universes ∧ v ∉ insert u done ∧ ∀ w, g.Fills w v → w ∈ insert u done := by
  have hu : u ∈ s.ready := hready ▸ List.mem_cons_self
  obtain ⟨_, hudone, _⟩ := (h.ready u).mp hu
  have hfirst : u ∉ ready := (List.nodup_cons.mp (hready ▸ h.ready_nodup)).1
  have hrest : v ∈ ready ↔ v ∈ s.ready ∧ v ≠ u := by
    rw [hready, List.mem_cons]
    constructor
    · intro hv
      exact ⟨.inr hv, fun heq => hfirst (heq ▸ hv)⟩
    · rintro ⟨rfl | hv, hne⟩
      · exact absurd rfl hne
      · exact hv
  rw [ht.ready, hrest, h.ready, Finset.mem_insert, not_or]
  constructor
  · rintro (⟨⟨hv, hdone, howners⟩, hne⟩ | ⟨hfill, hone⟩)
    · exact ⟨hv, ⟨hne, hdone⟩, fun w hw => Finset.mem_insert_of_mem (howners w hw)⟩
    · have hv : v ∈ g.universes := hg.filled_mem hfill
      rw [h.owners v hv, Option.some.injEq, card_ownersLeft_eq_one_iff hg hfill hudone] at hone
      exact ⟨hv, ⟨fun heq => h.not_fills hu (.inl heq) hfill,
        fun hdone => h.not_fills hu (.inr hdone) hfill⟩, hone⟩
  · rintro ⟨hv, ⟨hne, hdone⟩, howners⟩
    by_cases hfill : g.Fills u v
    · refine .inr ⟨hfill, ?_⟩
      rw [h.owners v hv, Option.some.injEq]
      exact (card_ownersLeft_eq_one_iff hg hfill hudone).mpr howners
    · -- what the universe is not filled with was waiting for others
      refine .inl ⟨⟨hv, hdone, fun w hw => ?_⟩, hne⟩
      exact (Finset.mem_insert.mp (howners w hw)).resolve_left fun heq => hfill (heq ▸ hw)

/-- The instances of each universe stay the sum of what its owners have passed on. -/
theorem Placing.Tracks.balance_next (h : s.Tracks g done) (hready : s.ready = u :: ready)
    (ht : Placed (s.count u) (g.children u) { s with ready } t) (v : Nat) :
    SameCount (t.count v)
      ((if v = 0 then 1 else 0) + ∑ w ∈ insert u done, t.count w * g.placed w v) := by
  have hu : u ∈ s.ready := hready ▸ List.mem_cons_self
  obtain ⟨_, hudone, _⟩ := (h.ready u).mp hu
  -- nothing is passed on to the universe itself or to those that have passed theirs on
  have hcount {w : Nat} (hw : w = u ∨ w ∈ done) : t.count w = s.count w :=
    ht.count_other (h.not_fills hu hw)
  have hsum : ∑ w ∈ insert u done, t.count w * g.placed w v =
      s.count u * g.placed u v + ∑ w ∈ done, s.count w * g.placed w v := by
    rw [Finset.sum_insert hudone, hcount (.inl rfl)]
    congr 1
    exact Finset.sum_congr rfl fun w hw => by rw [hcount (.inr hw)]
  calc SameCount (t.count v) (s.count v + s.count u * g.placed u v) := ht.sameCount v
    SameCount _ ((if v = 0 then 1 else 0) + ∑ w ∈ done, s.count w * g.placed w v +
        s.count u * g.placed u v) := SameCount.add (h.balance v) rfl
    _ = (if v = 0 then 1 else 0) + ∑ w ∈ insert u done, t.count w * g.placed w v := by
      rw [hsum, Nat.add_assoc, Nat.add_comm (s.count u * g.placed u v)]

/-- The universe that has passed its instances on joins the others that have. -/
theorem Placing.Tracks.next (hg : g.WellFormed) (h : s.Tracks g done) (hready : s.ready = u :: ready)
    (ht : Placed (s.count u) (g.children u) { s with ready } t) :
    t.Tracks g (insert u done) where
  owners_done := by
    intro v hv w hw
    have hu : u ∈ s.ready := hready ▸ List.mem_cons_self
    obtain ⟨_, _, huowners⟩ := (h.ready u).mp hu
    rcases Finset.mem_insert.mp hv with rfl | hv
    · exact Finset.mem_insert_of_mem (huowners w hw)
    · exact Finset.mem_insert_of_mem (h.owners_done v hv w hw)
  owners := by
    intro v hv
    have hu : u ∈ s.ready := hready ▸ List.mem_cons_self
    obtain ⟨_, hudone, _⟩ := (h.ready u).mp hu
    have hin : v ∈ (g.children u).map (·.1) ↔ g.Fills u v := Iff.rfl
    rw [ht.owners, h.owners v hv, ownersLeft_insert hg]
    by_cases hfill : g.Fills u v
    · have hmem : u ∈ ownersLeft g done v := (mem_ownersLeft hg).mpr ⟨hfill, hudone⟩
      rw [if_pos (hin.mpr hfill), Finset.card_erase_of_mem hmem]
      rfl
    · have hnot : u ∉ ownersLeft g done v := fun hmem => hfill ((mem_ownersLeft hg).mp hmem).1
      rw [if_neg (mt hin.mp hfill), Finset.erase_eq_of_notMem hnot]
  ready := h.mem_ready_next hg hready ht
  ready_nodup := ht.ready_nodup (List.nodup_cons.mp (hready ▸ h.ready_nodup)).2
  keys := by
    intro v
    have hkey : v ∈ t.instances.keys ↔ g.Fills u v ∨ v ∈ s.instances.keys := ht.mem_keys_iff
    rw [hkey, h.keys]
    simp only [Finset.mem_insert, exists_eq_or_imp]
    tauto
  capped v := ht.count_le (h.capped v)
  balance := h.balance_next hready ht

theorem placeAll_turn (s : Placing) :
    placeAll g s = placeTurn g s >>= Sum.elim some (placeAll g) :=
  loop_eq _ _

/-- Without cycles some universe is ready until all have passed their instances on. -/
theorem placeAll_eq (hg : g.WellFormed) (hacyclic : ∀ u, ¬ Relation.TransGen g.Fills u u)
    (h : s.Tracks g done) (hdone : done ⊆ g.universes.toFinset) :
    ∃ t : Placing, placeAll g s = some t.instances ∧ t.Tracks g g.universes.toFinset := by
  induction hleft : (g.universes.toFinset \ done).card using Nat.strong_induction_on
    generalizing s done with
  | _ left ih =>
  rw [placeAll_turn, placeTurn]
  cases hready : s.ready with
  | nil =>
    have hall : done = g.universes.toFinset := by
      refine Finset.Subset.antisymm hdone fun v hv => ?_
      refine owner_induction (P := (· ∈ done)) hg hacyclic (fun v hv howners => ?_)
        (List.mem_toFinset.mp hv)
      by_contra hnot
      have hmem := (h.ready v).mpr ⟨hv, hnot, howners⟩
      rw [hready] at hmem
      exact absurd hmem List.not_mem_nil
    exact ⟨s, rfl, hall ▸ h⟩
  | cons u ready =>
    have hu : u ∈ s.ready := by simp [hready]
    obtain ⟨humem, hudone, -⟩ := (h.ready u).mp hu
    have howners : ∀ v ∈ (g.children u).map (·.1), ∃ n, s.owners.find? v = some (n + 1) := by
      intro v hv
      have hfill : g.Fills u v := hv
      have hpos := Finset.card_pos.mpr ⟨u, (mem_ownersLeft hg).mpr ⟨hfill, hudone⟩⟩
      obtain ⟨n, hn⟩ := Nat.exists_eq_succ_of_ne_zero (Nat.ne_of_gt hpos)
      exact ⟨n, by rw [h.owners v (hg.filled_mem hfill), hn]⟩
    obtain ⟨t, hrun, ht⟩ := @foldlM_place (s.count u) { s with ready } (g.children u)
      ((g.pairwise_targets u).imp Nat.ne_of_lt) howners
    simp only [hrun, Option.bind_eq_bind, Option.bind_some, Option.pure_def, Sum.elim_inr]
    have hinsert : insert u done ⊆ g.universes.toFinset :=
      Finset.insert_subset (List.mem_toFinset.mpr humem) hdone
    refine ih _ ?_ (h.next hg hready ht) hinsert rfl
    rw [← hleft]
    refine Finset.card_lt_card (Finset.ssubset_iff_subset_ne.mpr
      ⟨Finset.sdiff_subset_sdiff subset_rfl (Finset.subset_insert u done), fun heq => ?_⟩)
    have hmem : u ∈ g.universes.toFinset \ done :=
      Finset.mem_sdiff.mpr ⟨List.mem_toFinset.mpr humem, hudone⟩
    rw [← heq] at hmem
    exact (Finset.mem_sdiff.mp hmem).2 (Finset.mem_insert_self u done)

end Run

theorem find?_retain (depth t : Table Nat Nat) (v : Nat) :
    (retain depth t).find? v = if v ∈ depth.keys then t.find? v else none := by
  rw [retain, Table.find?_ofList, Table.find?]
  induction t.entries with
  | nil => simp
  | cons e entries ih =>
    rw [List.filter_cons]
    by_cases hv : v = e.1
    · subst hv
      by_cases hdepth : e.1 ∈ depth.keys
      · rw [if_pos (Table.contains_iff_mem_keys.mpr hdepth), lookup_same rfl, lookup_same rfl,
          if_pos hdepth]
      · rw [if_neg (mt Table.contains_iff_mem_keys.mp hdepth), ih, if_neg hdepth, if_neg hdepth]
    · rw [lookup_other hv, ← ih]
      split
      · rw [lookup_other hv]
      · rfl

theorem instances_eq (hg : g.WellFormed) (hsize : g.universes.length < maxWord)
    (hacyclic : ∀ u, ¬ Relation.TransGen g.Fills u u) :
    instances g g.depths = some g.instances := by
  obtain ⟨owners, hrun, howners⟩ := owners_eq hg hsize
  obtain ⟨t, hplaced, ht⟩ := placeAll_eq hg hacyclic (Placing.Tracks.start hg howners)
    (Finset.empty_subset _)
  rw [instances, hrun]
  simp only [hplaced, Option.bind_eq_bind, Option.bind_some]
  refine congrArg some (Table.ext_find? fun v => ?_)
  rw [find?_retain, find?_instances_of_balance hg hacyclic fun v _ => ht.balance v]
  refine ite_congr rfl (fun hv => ?_) fun _ => rfl
  -- a universe that can be reached is universe zero or has an owner, so it has been counted
  have hkey : v ∈ t.instances.keys := by
    obtain ⟨p, hp⟩ := (mem_keys_depths hg).mp hv
    rw [ht.keys]
    cases hp with
    | zero => exact .inl rfl
    | fill _ hfill => exact .inr ⟨_, List.mem_toFinset.mpr (hg.owner_mem hfill), hfill⟩
  obtain ⟨n, hn⟩ := Table.mem_keys_iff.mp hkey
  have hcount : t.count v = n := by rw [Placing.count, hn]; rfl
  have hcap := ht.capped v
  rw [hn, ← hcount, Nat.min_eq_right hcap]

end TransportDeck.Checked
