import TransportDeck.Proofs.Checked.Steps
import TransportDeck.Proofs.FillGraph.Layers
import TransportDeck.Proofs.Table.Order

namespace TransportDeck.Checked

/-- Puts the universes that have no depth yet one layer below `n`, and into the queue. -/
def deepen (n : Nat) : List Nat → Table Nat Nat × List Nat → Option (Table Nat Nat × List Nat)
  | [], state => some state
  | v :: vs, (depth, queue) => do
    if (depth.find? v).isSome then deepen n vs (depth, queue)
    else deepen n vs (depth.insert v (← add? n 1), queue ++ [v])

def breadthTurn (g : FillGraph) :
    Table Nat Nat × List Nat → Option (Table Nat Nat ⊕ Table Nat Nat × List Nat)
  | (depth, []) => some (.inl depth)
  | (depth, u :: queue) =>
    match depth.find? u with
    | none => some (.inr (depth, queue))
    | some n => do return .inr (← deepen n (g.targets u) (depth, queue))

noncomputable def breadthFirst (g : FillGraph) (depth : Table Nat Nat) (queue : List Nat) :
    Option (Table Nat Nat) :=
  loop (breadthTurn g) (depth, queue)

noncomputable def depths (g : FillGraph) : Option (Table Nat Nat) :=
  breadthFirst g (.ofList [(0, 0)]) [0]

variable {g : FillGraph} {depth : Table Nat Nat} {u v n : Nat} {queue vs : List Nat}

def fresh (depth : Table Nat Nat) (vs : List Nat) : List Nat :=
  vs.filter fun v => (depth.find? v).isNone

theorem mem_fresh : v ∈ fresh depth vs ↔ v ∈ vs ∧ depth.find? v = none := by
  simp [fresh]

/-- From `depth` to `depth'` the fresh universes of a list are put one layer below `n`. -/
def Deepened (depth depth' : Table Nat Nat) (vs : List Nat) (n : Nat) : Prop :=
  ∀ w, depth'.find? w = if w ∈ fresh depth vs then some (n + 1) else depth.find? w

section Deepened

variable {depth' : Table Nat Nat} {m w : Nat}

theorem Deepened.find?_fresh (hd : Deepened depth depth' vs n) (hw : w ∈ fresh depth vs) :
    depth'.find? w = some (n + 1) := by
  rw [hd, if_pos hw]

theorem Deepened.find?_other (hd : Deepened depth depth' vs n) (hw : w ∉ fresh depth vs) :
    depth'.find? w = depth.find? w := by
  rw [hd, if_neg hw]

/-- A depth that has been found stays. -/
theorem Deepened.kept (hd : Deepened depth depth' vs n) (hw : depth.find? w = some m) :
    depth'.find? w = some m := by
  have hold : w ∉ fresh depth vs := by
    intro hmem
    rw [(mem_fresh.mp hmem).2] at hw
    cases hw
  rw [hd.find?_other hold, hw]

theorem Deepened.mem_keys (hd : Deepened depth depth' vs n) (hw : w ∈ depth.keys) :
    w ∈ depth'.keys := by
  obtain ⟨m, hm⟩ := Table.mem_keys_iff.mp hw
  exact Table.mem_keys_iff.mpr ⟨m, hd.kept hm⟩

end Deepened

/-- The fresh ones of some distinct universes are put one layer below `n`. -/
theorem deepen_eq (hn : n < maxWord) (hvs : vs.Nodup) : ∃ depth',
    deepen n vs (depth, queue) = some (depth', queue ++ fresh depth vs) ∧
    Deepened depth depth' vs n := by
  induction vs generalizing depth queue with
  | nil => exact ⟨depth, by simp [deepen, fresh], by simp [Deepened, fresh]⟩
  | cons v vs ih =>
    obtain ⟨hv, hvs⟩ := List.nodup_cons.mp hvs
    have hadd : add? n 1 = some (n + 1) := add?_eq hn
    rw [deepen]
    cases hfound : depth.find? v with
    | some m =>
      have hsame : fresh depth (v :: vs) = fresh depth vs := by simp [fresh, hfound]
      obtain ⟨depth', hrun, hd⟩ := @ih depth queue hvs
      refine ⟨depth', ?_, fun w => ?_⟩
      · rw [hsame]
        exact hrun
      · rw [hsame]
        exact hd w
    | none =>
      have hother : fresh (depth.insert v (n + 1)) vs = fresh depth vs := by
        refine List.filter_congr fun w hw => ?_
        have hne : w ≠ v := fun h => hv (h ▸ hw)
        rw [Table.find?_insert_other _ hne]
      have hfresh : fresh depth (v :: vs) = v :: fresh depth vs := by simp [fresh, hfound]
      obtain ⟨depth', hrun, hd⟩ := @ih (depth.insert v (n + 1)) (queue ++ [v]) hvs
      refine ⟨depth', ?_, fun w => ?_⟩
      · rw [hadd]
        rw [hother, List.append_assoc] at hrun
        rw [hfresh]
        exact hrun
      · rw [hd, hother, hfresh]
        by_cases hw : w = v
        · subst hw
          rw [if_neg (fun h => hv (mem_fresh.mp h).1), Table.find?_insert_same,
            if_pos List.mem_cons_self]
        · rw [Table.find?_insert_other _ hw]
          simp [hw]

structure Frontier (g : FillGraph) (depth : Table Nat Nat) (queue : List Nat) : Prop where
  zero : depth.find? 0 = some 0
  sound : ∀ {v n}, depth.find? v = some n → FillGraph.IsDepth g.Fills v n
  queued : ∀ u ∈ queue, ∃ n, depth.find? u = some n
  followed : ∀ {u v}, u ∈ depth.keys → u ∉ queue → g.Fills u v → v ∈ depth.keys
  two_layers : queue.Pairwise fun u v => ∀ m n, depth.find? u = some m → depth.find? v = some n →
    m ≤ n ∧ n ≤ m + 1

theorem Frontier.start (g : FillGraph) : Frontier g (.ofList [(0, 0)]) [0] where
  zero := rfl
  sound := by
    intro v n hv
    obtain ⟨rfl, rfl⟩ : v = 0 ∧ n = 0 := by
      rw [Table.find?_eq_some_iff_mem] at hv
      simpa using List.mem_singleton.mp hv
    exact FillGraph.isDepth_zero_iff.mpr rfl
  queued := by simp
  followed hu hqueue := absurd (List.mem_singleton.mpr (List.mem_singleton.mp hu)) hqueue
  two_layers := List.pairwise_singleton _ _

/-- Every universe that is no deeper than the head of the queue has a depth. -/
theorem Frontier.complete (h : Frontier g depth (u :: queue)) {m : Nat} (hu : depth.find? u = some n)
    (hle : m ≤ n) (hv : FillGraph.IsDepth g.Fills v m) : v ∈ depth.keys := by
  induction m generalizing v with
  | zero =>
    obtain rfl := FillGraph.isDepth_zero_iff.mp hv
    exact Table.mem_keys_iff.mpr ⟨0, h.zero⟩
  | succ m ih =>
    obtain ⟨_, w, hw, hfill⟩ := FillGraph.isDepth_succ_iff.mp hv
    have hkey := ih (Nat.le_of_succ_le hle) hw
    obtain ⟨k, hk⟩ := Table.mem_keys_iff.mp hkey
    obtain rfl := hw.unique (h.sound hk)
    -- what stands in the queue lies at least as deep as its head
    have hqueue : w ∉ u :: queue := by
      intro hmem
      rcases List.mem_cons.mp hmem with rfl | hmem
      · rw [hk] at hu
        have := Option.some.inj hu
        omega
      · have := ((List.pairwise_cons.mp h.two_layers).1 w hmem n m hu hk).1
        omega
    exact h.followed hkey hqueue hfill

section Next

variable {depth' : Table Nat Nat} {w m : Nat}

/-- A shorter way to a fresh universe would have given it a depth by now. -/
theorem Frontier.isDepth_fresh (h : Frontier g depth (u :: queue)) (hu : depth.find? u = some n)
    (hw : w ∈ fresh depth (g.targets u)) : FillGraph.IsDepth g.Fills w (n + 1) := by
  obtain ⟨hfill, hnone⟩ := mem_fresh.mp hw
  refine FillGraph.isDepth_succ_iff.mpr ⟨fun p hp => ?_, u, h.sound hu, hfill⟩
  by_contra hshort
  obtain ⟨k, hk⟩ := FillGraph.exists_isDepth_iff.mpr hp.reaches
  have hle : k ≤ p.length := hk.2 ⟨p, hp, rfl⟩
  have hknown : w ∈ depth.keys := h.complete hu (by omega) hk
  obtain ⟨j, hj⟩ := Table.mem_keys_iff.mp hknown
  rw [hnone] at hj
  cases hj

/-- The fills of the head are followed now, those of the rest of the queue are yet to be. -/
theorem Frontier.followed_next (h : Frontier g depth (u :: queue)) (hd : Deepened depth depth' (g.targets u) n)
    {x : Nat} (hw : w ∈ depth'.keys) (hqueue : w ∉ queue ++ fresh depth (g.targets u))
    (hfill : g.Fills w x) : x ∈ depth'.keys := by
  have hold : w ∉ fresh depth (g.targets u) := fun hmem => hqueue (List.mem_append_right _ hmem)
  have hwkey : w ∈ depth.keys := by
    obtain ⟨m, hm⟩ := Table.mem_keys_iff.mp hw
    rw [hd.find?_other hold] at hm
    exact Table.mem_keys_iff.mpr ⟨m, hm⟩
  by_cases hwu : w = u
  · subst hwu
    cases hx : depth.find? x with
    | none => exact Table.mem_keys_iff.mpr ⟨n + 1, hd.find?_fresh (mem_fresh.mpr ⟨hfill, hx⟩)⟩
    | some m => exact Table.mem_keys_iff.mpr ⟨m, hd.kept hx⟩
  · refine hd.mem_keys (h.followed hwkey (fun hmem => ?_) hfill)
    rcases List.mem_cons.mp hmem with hwu' | hmem
    · exact hwu hwu'
    · exact hqueue (List.mem_append_left _ hmem)

/-- The layer of the head and the one below it are all that the queue holds. -/
theorem Frontier.two_layers_next (h : Frontier g depth (u :: queue)) (hu : depth.find? u = some n)
    (hd : Deepened depth depth' (g.targets u) n) :
    (queue ++ fresh depth (g.targets u)).Pairwise fun v w => ∀ m k,
      depth'.find? v = some m → depth'.find? w = some k → m ≤ k ∧ k ≤ m + 1 := by
  obtain ⟨hhead, htail⟩ := List.pairwise_cons.mp h.two_layers
  have hqueue {w m : Nat} (hw : w ∈ queue) (hm : depth'.find? w = some m) :
      depth.find? w = some m := by
    obtain ⟨k, hk⟩ := h.queued w (List.mem_cons_of_mem u hw)
    rw [hd.kept hk] at hm
    rw [hk, hm]
  have hnew {w m : Nat} (hw : w ∈ fresh depth (g.targets u)) (hm : depth'.find? w = some m) :
      m = n + 1 := by
    rw [hd.find?_fresh hw] at hm
    exact (Option.some.inj hm).symm
  refine List.pairwise_append.mpr ⟨?_, ?_, ?_⟩
  · refine htail.imp_of_mem fun hw hx hwx m k hm hk => ?_
    exact hwx m k (hqueue hw hm) (hqueue hx hk)
  · refine List.pairwise_of_forall_mem_list fun w hw x hx m k hm hk => ?_
    rw [hnew hw hm, hnew hx hk]
    exact ⟨Nat.le_refl _, Nat.le_succ _⟩
  · intro w hw x hx m k hm hk
    have hlayer := hhead w hw n m hu (hqueue hw hm)
    have hk := hnew hx hk
    omega

/-- Once the fills of the head have been followed, everything holds of the rest of the queue. -/
theorem Frontier.next (h : Frontier g depth (u :: queue)) (hu : depth.find? u = some n)
    (hd : Deepened depth depth' (g.targets u) n) : Frontier g depth' (queue ++ fresh depth (g.targets u)) where
  zero := hd.kept h.zero
  sound := by
    intro w m hw
    by_cases hfresh : w ∈ fresh depth (g.targets u)
    · rw [hd.find?_fresh hfresh] at hw
      obtain rfl := Option.some.inj hw
      exact h.isDepth_fresh hu hfresh
    · rw [hd.find?_other hfresh] at hw
      exact h.sound hw
  queued := by
    intro w hw
    rcases List.mem_append.mp hw with hw | hw
    · obtain ⟨m, hm⟩ := h.queued w (List.mem_cons_of_mem u hw)
      exact ⟨m, hd.kept hm⟩
    · exact ⟨n + 1, hd.find?_fresh hw⟩
  followed := h.followed_next hd
  two_layers := h.two_layers_next hu hd

end Next

def workLeft (g : FillGraph) (depth : Table Nat Nat) (queue : List Nat) : Nat :=
  (fresh depth g.universes).length + queue.length

theorem workLeft_next (hg : g.WellFormed) {depth' : Table Nat Nat}
    (hd : Deepened depth depth' (g.targets u) n) :
    workLeft g depth' (queue ++ fresh depth (g.targets u)) < workLeft g depth (u :: queue) := by
  have hmem {w : Nat} : w ∈ fresh depth' g.universes ↔
      w ∈ fresh depth g.universes ∧ w ∉ fresh depth (g.targets u) := by
    rw [mem_fresh, mem_fresh, hd]
    split <;> simp [*]
  have hnodup : (fresh depth' g.universes ++ fresh depth (g.targets u)).Nodup := by
    refine List.Nodup.append ?_ ?_ fun w hw hput => (hmem.mp hw).2 hput
    · exact (hg.sorted.imp Nat.ne_of_lt).filter _
    · exact ((g.pairwise_targets u).imp Nat.ne_of_lt).filter _
  have hsubset : fresh depth' g.universes ++ fresh depth (g.targets u) ⊆
      fresh depth g.universes := by
    intro w hw
    rcases List.mem_append.mp hw with hw | hw
    · exact (hmem.mp hw).1
    · obtain ⟨hfill, hnone⟩ := mem_fresh.mp hw
      exact mem_fresh.mpr ⟨hg.filled_mem hfill, hnone⟩
  have hle := (hnodup.subperm hsubset).length_le
  rw [List.length_append] at hle
  simp only [workLeft, List.length_append, List.length_cons]
  omega

theorem layers_length_le (g : FillGraph) (unvisited frontier : List Nat) :
    (g.layers unvisited frontier).length ≤ unvisited.length + 1 := by
  fun_induction FillGraph.layers g unvisited frontier with
  | case1 => simp
  | case2 unvisited frontier hnext hlt ih =>
    rw [List.length_cons]
    omega

theorem isDepth_le (hg : g.WellFormed) (h : FillGraph.IsDepth g.Fills v n) :
    n ≤ g.universes.length := by
  obtain ⟨layer, hmem, -⟩ :=
    ((FillGraph.atDepth_start g).mem_layers_iff hg).mpr ⟨Nat.zero_le n, h⟩
  have hlayers := layers_length_le g (g.universes.filter (· != 0)) [0]
  have hfilter := List.length_filter_le (· != 0) g.universes
  have hlt := List.snd_lt_of_mem_zipIdx hmem
  omega

theorem breadthFirst_turn (depth : Table Nat Nat) (queue : List Nat) :
    breadthFirst g depth queue = breadthTurn g (depth, queue) >>=
      Sum.elim some fun s => breadthFirst g s.1 s.2 :=
  loop_eq _ _

theorem breadthFirst_eq (hg : g.WellFormed) (hsize : g.universes.length < maxWord)
    (h : Frontier g depth queue) : breadthFirst g depth queue = some g.depths := by
  induction hwork : workLeft g depth queue using Nat.strong_induction_on
    generalizing depth queue with
  | _ work ih =>
  cases queue with
  | nil =>
    rw [breadthFirst_turn]
    have hreached {v : Nat} (hv : Relation.ReflTransGen g.Fills 0 v) : v ∈ depth.keys := by
      induction hv with
      | refl => exact Table.mem_keys_iff.mpr ⟨0, h.zero⟩
      | tail _ hfill ih => exact h.followed ih List.not_mem_nil hfill
    refine congrArg some (Table.ext_find? fun v => Option.ext fun n => ?_)
    rw [FillGraph.find?_depths hg]
    refine ⟨h.sound, fun hv => ?_⟩
    obtain ⟨m, hm⟩ := Table.mem_keys_iff.mp (hreached (FillGraph.exists_isDepth_iff.mp ⟨n, hv⟩))
    rw [hm, (h.sound hm).unique hv]
  | cons u queue =>
    obtain ⟨n, hu⟩ := h.queued u List.mem_cons_self
    have hn : n < maxWord := Nat.lt_of_le_of_lt (isDepth_le hg (h.sound hu)) hsize
    obtain ⟨depth', hrun, hd⟩ := @deepen_eq depth n queue (g.targets u) hn
      ((g.pairwise_targets u).imp Nat.ne_of_lt)
    rw [breadthFirst_turn, breadthTurn, hu]
    simp only [hrun, Option.bind_eq_bind, Option.bind_some, Option.pure_def, Sum.elim_inr]
    exact ih _ (hwork ▸ workLeft_next hg hd) (h.next hu hd) rfl

theorem depths_eq (hg : g.WellFormed) (hsize : g.universes.length < maxWord) :
    depths g = some g.depths :=
  breadthFirst_eq hg hsize (Frontier.start g)

end TransportDeck.Checked
