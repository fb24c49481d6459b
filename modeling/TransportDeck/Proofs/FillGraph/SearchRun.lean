import TransportDeck.Proofs.FillGraph.SearchInvariant

namespace TransportDeck.FillGraph

variable {g : FillGraph} {unvisited : List Nat} {found : List Cycle} {path outer : List Frame}
  {u v : Nat} {pending : List Nat}

/-- Entering a universe leaves none. -/
theorem left_enter_iff (hv : v ∈ unvisited) (hd : unvisited.Nodup) {f : Frame}
    (hf : f.universeId = v) {w : Nat} :
    SearchState.Left g ⟨unvisited.erase v, found, f :: path⟩ w ↔
      SearchState.Left g ⟨unvisited, found, path⟩ w := by
  simp only [SearchState.Left, names, List.map_cons, hf, List.mem_cons, hd.mem_erase_iff]
  constructor
  · rintro ⟨hw, hunvisited, hpath⟩
    have hwv : w ≠ v := fun h => hpath (.inl h)
    exact ⟨hw, fun h => hunvisited ⟨hwv, h⟩, fun h => hpath (.inr h)⟩
  · rintro ⟨hw, hunvisited, hpath⟩
    refine ⟨hw, fun h => hunvisited h.2, ?_⟩
    rintro (rfl | h)
    · exact hunvisited hv
    · exact hpath h

theorem Marks.enter (h : Marks g ⟨unvisited, found, path⟩) (hv : v ∈ unvisited)
    (htrail : Trail g ⟨unvisited, found, path⟩ v path) :
    Invariant g ⟨unvisited.erase v, found, ⟨v, g.targets v⟩ :: path⟩ := by
  have hleft (w : Nat) : SearchState.Left g
      ⟨unvisited.erase v, found, ⟨v, g.targets v⟩ :: path⟩ w ↔
        SearchState.Left g ⟨unvisited, found, path⟩ w :=
    left_enter_iff hv h.unvisited_nodup rfl
  have hgrow : SearchState.Grows g ⟨unvisited, found, path⟩
      ⟨unvisited.erase v, found, ⟨v, g.targets v⟩ :: path⟩ :=
    ⟨fun _ hp => hp, fun w hw => (hleft w).mpr hw⟩
  refine ⟨⟨h.unvisited_nodup.erase v, ?_, ?_, ?_, h.found_nodup, h.found_closed, ?_, ?_, ?_⟩,
    ⟨[], rfl, fun x hx => absurd hx List.not_mem_nil⟩, htrail.grow hgrow⟩
  · exact fun w hw => h.unvisited_mem w (List.mem_of_mem_erase hw)
  · exact List.nodup_cons.mpr ⟨fun hmem => (h.path_visited v hmem).2 hv, h.path_nodup⟩
  · intro w hw
    rcases List.mem_cons.mp hw with rfl | hw
    · exact ⟨h.unvisited_mem _ hv, h.unvisited_nodup.not_mem_erase⟩
    · have hvisited := h.path_visited w hw
      exact ⟨hvisited.1, fun hmem => hvisited.2 (List.mem_of_mem_erase hmem)⟩
  · intro w hw x hx hmem
    exact h.left_visited w ((hleft w).mp hw) x hx (List.mem_of_mem_erase hmem)
  · exact fun w hw => h.left_recorded w ((hleft w).mp hw)
  · exact fun hfound w hw => h.left_ends hfound w ((hleft w).mp hw)

/-- Where the path gets shorter, its end is left. -/
theorem left_leave_iff (h : Marks g ⟨unvisited, found, ⟨u, pending⟩ :: outer⟩) {w : Nat} :
    SearchState.Left g ⟨unvisited, found, outer⟩ w ↔
      w = u ∨ SearchState.Left g ⟨unvisited, found, ⟨u, pending⟩ :: outer⟩ w := by
  have hu := h.path_visited u List.mem_cons_self
  have hfresh : u ∉ names outer := (List.nodup_cons.mp h.path_nodup).1
  simp only [SearchState.Left, names, List.map_cons, List.mem_cons]
  constructor
  · rintro ⟨hw, hunvisited, hpath⟩
    by_cases hwu : w = u
    · exact .inl hwu
    · exact .inr ⟨hw, hunvisited, fun h => h.elim hwu hpath⟩
  · rintro (rfl | ⟨hw, hunvisited, hpath⟩)
    · exact ⟨hu.1, hu.2, hfresh⟩
    · exact ⟨hw, hunvisited, fun h => hpath (.inr h)⟩

/-- The path of the search is the first path to its end. -/
theorem Invariant.isFirstPath (hg : g.WellFormed)
    (h : Invariant g ⟨unvisited, found, ⟨u, pending⟩ :: outer⟩) :
    IsFirstPath g.Fills (u :: names outer).reverse u := by
  have hu := h.path_visited u List.mem_cons_self
  have hnot : ¬ SearchState.Left g ⟨unvisited, found, ⟨u, pending⟩ :: outer⟩ u :=
    fun hl => hl.2.2 List.mem_cons_self
  exact h.current.2.isFirstPath hg h.path_nodup hu.1 hnot

/-- One more fill is settled: the fills before it stay so. -/
theorem settled_next {s t : SearchState} {onPath : List Nat} (hgrow : SearchState.Grows g s t)
    (h : ∃ done, g.targets u = done ++ v :: pending ∧ ∀ x ∈ done, s.Settled g onPath x)
    (hv : t.Settled g onPath v) :
    ∃ done, g.targets u = done ++ pending ∧ ∀ x ∈ done, t.Settled g onPath x := by
  obtain ⟨done, hdone, hsettled⟩ := h
  refine ⟨done ++ [v], by rw [hdone, List.append_assoc, List.singleton_append], ?_⟩
  intro x hx
  rcases List.mem_append.mp hx with hx | hx
  · exact (hsettled x hx).grow hgrow
  · rw [List.mem_singleton.mp hx]
    exact hv

theorem Invariant.marks_leave (hg : g.WellFormed)
    (h : Invariant g ⟨unvisited, found, ⟨u, []⟩ :: outer⟩) : Marks g ⟨unvisited, found, outer⟩ := by
  obtain ⟨⟨done, hdone, hsettled⟩, _⟩ := h.current
  obtain rfl : done = g.targets u := by rw [hdone, List.append_nil]
  have hleft (w : Nat) := left_leave_iff h.toMarks (w := w)
  refine ⟨h.unvisited_nodup, h.unvisited_mem, (List.nodup_cons.mp h.path_nodup).2,
    fun w hw => h.path_visited w (List.mem_cons_of_mem u hw), h.found_nodup, h.found_closed,
    ?_, ?_, ?_⟩
  · intro w hw x hx
    rcases (hleft w).mp hw with rfl | hw
    · by_cases hpath : x ∈ names (⟨w, []⟩ :: outer)
      · exact (h.path_visited x hpath).2
      · exact ((hsettled x hx).left hpath x .refl).2.1
    · exact h.left_visited w hw x hx
  · intro w hw p hp x hxp hx
    rcases (hleft w).mp hw with rfl | hw
    · -- the path that is left here is the only first path to its end
      have hsame := hp.unique (h.isFirstPath hg)
      rw [hsame, List.reverse_reverse]
      rw [hsame, List.mem_reverse] at hxp
      exact (hsettled x hx).recorded hxp
    · exact h.left_recorded w hw p hp x hxp hx
  · intro hfound w hw
    have hnone : found = [] := hfound
    rcases (hleft w).mp hw with rfl | hw
    · constructor
      intro x hx
      by_cases hpath : x ∈ names (⟨w, []⟩ :: outer)
      · have hclosed := (hsettled x hx).recorded hpath
        simp [hnone] at hclosed
      · exact h.left_ends hfound x ((hsettled x hx).left hpath x .refl)
    · exact h.left_ends hfound w hw

theorem Invariant.leave (hg : g.WellFormed)
    (h : Invariant g ⟨unvisited, found, ⟨u, []⟩ :: outer⟩) :
    Invariant g ⟨unvisited, found, outer⟩ := by
  have hleft (w : Nat) := left_leave_iff h.toMarks (w := w)
  have hgrow : SearchState.Grows g ⟨unvisited, found, ⟨u, []⟩ :: outer⟩
      ⟨unvisited, found, outer⟩ := ⟨fun _ hp => hp, fun w hw => (hleft w).mpr (.inr hw)⟩
  have hmarks := h.marks_leave hg
  refine ⟨hmarks, ?_⟩
  cases outer with
  | nil => trivial
  | cons f outer =>
    -- the fill that led to `u` is settled now
    obtain ⟨hbelow, hrest⟩ := h.current.2
    exact ⟨settled_next hgrow hbelow (hmarks.settled_of_left hg ((hleft u).mpr (.inl rfl))),
      hrest.grow hgrow⟩

theorem Invariant.enter (h : Invariant g ⟨unvisited, found, ⟨u, v :: pending⟩ :: outer⟩)
    (hv : v ∈ unvisited) :
    Invariant g ⟨unvisited.erase v, found, ⟨v, g.targets v⟩ :: ⟨u, pending⟩ :: outer⟩ := by
  -- what is known does not depend on the fills that are pending
  have hgrow : SearchState.Grows g ⟨unvisited, found, ⟨u, v :: pending⟩ :: outer⟩
      ⟨unvisited, found, ⟨u, pending⟩ :: outer⟩ := ⟨fun _ hp => hp, fun _ hw => hw⟩
  have hmarks : Marks g ⟨unvisited, found, ⟨u, pending⟩ :: outer⟩ :=
    ⟨h.unvisited_nodup, h.unvisited_mem, h.path_nodup, h.path_visited, h.found_nodup,
      h.found_closed, h.left_visited, h.left_recorded, h.left_ends⟩
  obtain ⟨⟨done, hdone, hsettled⟩, htrail⟩ := h.current
  exact hmarks.enter hv ⟨⟨done, hdone, fun x hx => (hsettled x hx).grow hgrow⟩,
    htrail.grow hgrow⟩

theorem Invariant.follow (hg : g.WellFormed)
    (h : Invariant g ⟨unvisited, found, ⟨u, v :: pending⟩ :: outer⟩) (hv : v ∉ unvisited) :
    Invariant g ⟨unvisited, record (⟨u, pending⟩ :: outer) u v found, ⟨u, pending⟩ :: outer⟩ := by
  obtain ⟨hbefore, htrail⟩ := h.current
  have hfill : g.Fills u v := by
    obtain ⟨done, hdone, _⟩ := hbefore
    rw [Fills, hdone]
    exact List.mem_append_right _ List.mem_cons_self
  have hfound (p : List Nat) (hp : p ∈ found.map Cycle.path) :
      p ∈ (record (⟨u, pending⟩ :: outer) u v found).map Cycle.path := by
    obtain ⟨c, hc, rfl⟩ := List.mem_map.mp hp
    exact List.mem_map.mpr ⟨c, mem_record_of_mem hc, rfl⟩
  have hgrow : SearchState.Grows g ⟨unvisited, found, ⟨u, v :: pending⟩ :: outer⟩
      ⟨unvisited, record (⟨u, pending⟩ :: outer) u v found, ⟨u, pending⟩ :: outer⟩ :=
    ⟨hfound, fun _ hw => hw⟩
  have hmarks : Marks g
      ⟨unvisited, record (⟨u, pending⟩ :: outer) u v found, ⟨u, pending⟩ :: outer⟩ := by
    refine ⟨h.unvisited_nodup, h.unvisited_mem, h.path_nodup, h.path_visited,
      nodup_record h.found_nodup, ?_, h.left_visited, ?_, ?_⟩
    · intro c hc
      rcases mem_record hc with hc | ⟨hmem, rfl⟩
      · exact h.found_closed c hc
      · refine ⟨(u :: names outer).reverse, h.isFirstPath hg, List.mem_reverse.mpr hmem, hfill, ?_⟩
        rw [List.reverse_reverse]
        rfl
    · exact fun w hw p hp x hx hwx => hfound _ (h.left_recorded w hw p hp x hx hwx)
    · intro hnone w hw
      refine h.left_ends (List.eq_nil_iff_forall_not_mem.mpr fun c hc => ?_) w hw
      have hc' : c ∈ record (⟨u, pending⟩ :: outer) u v found := mem_record_of_mem hc
      have hnone' : record (⟨u, pending⟩ :: outer) u v found = [] := hnone
      simp [hnone'] at hc'
  refine ⟨hmarks, settled_next hgrow hbefore ?_, htrail.grow hgrow⟩
  by_cases hpath : v ∈ names (⟨u, pending⟩ :: outer)
  · exact ⟨fun _ => closing_mem_record hpath, fun hnone => absurd hpath hnone⟩
  · exact hmarks.settled_of_left hg ⟨hg.filled_mem hfill, hv, hpath⟩

theorem Invariant.step (hg : g.WellFormed) {s t : SearchState} (h : Invariant g s)
    (hst : Step g s t) : Invariant g t := by
  cases hst with
  | leave unvisited found u outer => exact h.leave hg
  | enter unvisited found u v pending outer hv => exact h.enter hv
  | follow unvisited found u v pending outer hv => exact h.follow hg hv

theorem Invariant.run (hg : g.WellFormed) {s t : SearchState} (h : Invariant g s)
    (hst : Relation.ReflTransGen (Step g) s t) : Invariant g t := by
  induction hst with
  | refl => exact h
  | tail _ hstep ih => exact ih.step hg hstep

/-- Universes do not become unvisited again. -/
theorem unvisited_of_run {s t : SearchState} (hst : Relation.ReflTransGen (Step g) s t) {w : Nat}
    (hw : w ∈ t.unvisited) : w ∈ s.unvisited := by
  induction hst with
  | refl => exact hw
  | tail _ hstep ih =>
    apply ih
    cases hstep with
    | leave => exact hw
    | enter => exact List.mem_of_mem_erase hw
    | follow => exact hw

theorem invariant_start (hg : g.WellFormed) : Invariant g ⟨g.universes, [], []⟩ where
  unvisited_nodup := hg.sorted.imp Nat.ne_of_lt
  unvisited_mem _ hw := hw
  path_nodup := .nil
  path_visited _ hw := absurd hw List.not_mem_nil
  found_nodup := .nil
  found_closed _ hc := absurd hc List.not_mem_nil
  left_visited _ hw := absurd hw.1 hw.2.1
  left_recorded _ hw := absurd hw.1 hw.2.1
  left_ends _ _ hw := absurd hw.1 hw.2.1
  current := trivial

/-- A search from one root visits it, and needs every smaller universe visited before. -/
theorem invariant_searchFrom (hg : g.WellFormed) {root : Nat}
    (h : Invariant g ⟨unvisited, found, []⟩) (hbelow : ∀ w ∈ unvisited, root ≤ w) :
    Invariant g ⟨(g.searchFrom (unvisited, found) root).1,
        (g.searchFrom (unvisited, found) root).2, []⟩ ∧
      ∀ w ∈ (g.searchFrom (unvisited, found) root).1, w ∈ unvisited ∧ w ≠ root := by
  unfold searchFrom
  split
  case isTrue hroot =>
    have htrail : Trail g ⟨unvisited, found, []⟩ root [] := by
      intro w hw hlt
      have hvisited : w ∉ unvisited := fun hmem => Nat.not_lt.mpr (hbelow w hmem) hlt
      exact h.settled_of_left hg ⟨hw, hvisited, List.not_mem_nil⟩
    have hrun := explore_steps g (unvisited.erase root) found [⟨root, g.targets root⟩]
    refine ⟨(h.toMarks.enter hroot htrail).run hg hrun, ?_⟩
    intro w hw
    exact And.comm.mp (h.unvisited_nodup.mem_erase_iff.mp (unvisited_of_run hrun hw))
  case isFalse hroot => exact ⟨h, fun w hw => ⟨hw, fun hr => hroot (hr ▸ hw)⟩⟩

/-- Searches from ascending roots, which are all that is still unvisited, visit every universe. -/
theorem invariant_foldl (hg : g.WellFormed) {roots : List Nat} (hsorted : roots.Pairwise (· ≤ ·))
    (h : Invariant g ⟨unvisited, found, []⟩) (hroots : ∀ w ∈ unvisited, w ∈ roots) :
    Invariant g ⟨[], (roots.foldl g.searchFrom (unvisited, found)).2, []⟩ := by
  induction roots generalizing unvisited found with
  | nil =>
    have hnone : unvisited = [] := List.eq_nil_iff_forall_not_mem.mpr fun w hw =>
      absurd (hroots w hw) List.not_mem_nil
    subst hnone
    exact h
  | cons root roots ih =>
    obtain ⟨hfirst, hrest⟩ := List.pairwise_cons.mp hsorted
    have hbelow : ∀ w ∈ unvisited, root ≤ w := by
      intro w hw
      rcases List.mem_cons.mp (hroots w hw) with rfl | hw
      · exact Nat.le_refl w
      · exact hfirst w hw
    obtain ⟨hnext, hleft⟩ := invariant_searchFrom hg h hbelow
    refine ih hrest hnext fun w hw => ?_
    obtain ⟨hmem, hne⟩ := hleft w hw
    exact (List.mem_cons.mp (hroots w hmem)).resolve_left hne

/-- At the end of the whole search every universe has been left. -/
theorem invariant_cycles (hg : g.WellFormed) : Invariant g ⟨[], g.cycles, []⟩ := by
  have hsorted : (0 :: g.universes).Pairwise (· ≤ ·) :=
    List.pairwise_cons.mpr ⟨fun w _ => Nat.zero_le w, hg.sorted.imp Nat.le_of_lt⟩
  exact invariant_foldl hg hsorted (invariant_start hg) fun w hw => List.mem_cons_of_mem 0 hw

end TransportDeck.FillGraph
