import TransportDeck.Proofs.FillGraph.Search

namespace TransportDeck.FillGraph

variable {g : FillGraph} {s t : SearchState}

/-- A universe that has been visited and is no longer on the path. -/
def SearchState.Left (g : FillGraph) (s : SearchState) (u : Nat) : Prop :=
  u ∈ g.universes ∧ u ∉ s.unvisited ∧ u ∉ names s.path

/-- Fills lead on without meeting any of `avoid`. -/
def LeadsPast (g : FillGraph) (avoid : List Nat) : Nat → Nat → Prop :=
  Relation.ReflTransGen fun a b => g.Fills a b ∧ b ∉ avoid

/-- What is known of a fill to `x` that has been followed from the end of a path. -/
structure SearchState.Settled (g : FillGraph) (s : SearchState) (onPath : List Nat) (x : Nat) :
    Prop where
  recorded : x ∈ onPath → closing onPath x ∈ s.found.map Cycle.path
  left : x ∉ onPath → ∀ y, LeadsPast g onPath x y → s.Left g y

/-- The path below `v`: the fills followed before the one to the next universe are settled, and so
are the smaller universes that the search started from before. -/
def Trail (g : FillGraph) (s : SearchState) : Nat → List Frame → Prop
  | v, [] => ∀ w ∈ g.universes, w < v → s.Settled g [] w
  | v, f :: outer =>
    (∃ done, g.targets f.universeId = done ++ v :: f.pending ∧
      ∀ x ∈ done, s.Settled g (names (f :: outer)) x) ∧ Trail g s f.universeId outer

/-- The end of the path: the fills of it that are no longer pending are settled. -/
def Current (g : FillGraph) (s : SearchState) : List Frame → Prop
  | [] => True
  | f :: outer =>
    (∃ done, g.targets f.universeId = done ++ f.pending ∧
      ∀ x ∈ done, s.Settled g (names (f :: outer)) x) ∧ Trail g s f.universeId outer

def ClosedOnFirstPath (g : FillGraph) (c : Cycle) : Prop :=
  ∃ p, IsFirstPath g.Fills p c.owner ∧ c.filled ∈ p ∧ g.Fills c.owner c.filled ∧
    c.path = closing p.reverse c.filled

structure Marks (g : FillGraph) (s : SearchState) : Prop where
  unvisited_nodup : s.unvisited.Nodup
  unvisited_mem : ∀ u ∈ s.unvisited, u ∈ g.universes
  path_nodup : (names s.path).Nodup
  path_visited : ∀ u ∈ names s.path, u ∈ g.universes ∧ u ∉ s.unvisited
  found_nodup : (s.found.map Cycle.path).Nodup
  found_closed : ∀ c ∈ s.found, ClosedOnFirstPath g c
  left_visited : ∀ u, s.Left g u → ∀ x, g.Fills u x → x ∉ s.unvisited
  left_recorded : ∀ u, s.Left g u → ∀ p, IsFirstPath g.Fills p u → ∀ x ∈ p, g.Fills u x →
    closing p.reverse x ∈ s.found.map Cycle.path
  /-- Without a recorded cycle no fills lead on for ever from a universe that has been left. -/
  left_ends : s.found = [] → ∀ u, s.Left g u → Acc (fun y x => g.Fills x y) u

structure Invariant (g : FillGraph) (s : SearchState) : Prop extends Marks g s where
  current : Current g s s.path

/-- Later states know more: cycles stay recorded and universes stay left. -/
structure SearchState.Grows (g : FillGraph) (s t : SearchState) : Prop where
  found : ∀ p ∈ s.found.map Cycle.path, p ∈ t.found.map Cycle.path
  left : ∀ u, s.Left g u → t.Left g u

theorem SearchState.Settled.grow {onPath : List Nat} {x : Nat} (h : s.Settled g onPath x)
    (hgrow : s.Grows g t) : t.Settled g onPath x where
  recorded hx := hgrow.found _ (h.recorded hx)
  left hx y hy := hgrow.left y (h.left hx y hy)

theorem Trail.grow {v : Nat} {outer : List Frame} (h : Trail g s v outer) (hgrow : s.Grows g t) :
    Trail g t v outer := by
  induction outer generalizing v with
  | nil => exact fun w hw hv => (h w hw hv).grow hgrow
  | cons f outer ih =>
    obtain ⟨⟨done, hdone, hsettled⟩, hrest⟩ := h
    exact ⟨⟨done, hdone, fun x hx => (hsettled x hx).grow hgrow⟩, ih hrest⟩

/-- From a universe that has been left, fills lead only to universes that have been left, as long
as they do not lead back into the path. -/
theorem Marks.left_of_leadsPast (hg : g.WellFormed) (h : Marks g s) {x y : Nat}
    (hx : s.Left g x) (hy : LeadsPast g (names s.path) x y) : s.Left g y := by
  induction hy with
  | refl => exact hx
  | tail _ hstep ih => exact ⟨hg.filled_mem hstep.1, h.left_visited _ ih _ hstep.1, hstep.2⟩

/-- A fill to a universe that has been left is settled. -/
theorem Marks.settled_of_left (hg : g.WellFormed) (h : Marks g s) {x : Nat} (hx : s.Left g x) :
    s.Settled g (names s.path) x where
  recorded hmem := absurd hmem hx.2.2
  left _ _ hy := h.left_of_leadsPast hg hx hy

/-- A path that does not meet `avoid` again leads past it. -/
theorem leadsPast_of_chain {avoid r : List Nat} {x w : Nat} (hchain : (x :: r).IsChain g.Fills)
    (havoid : ∀ u ∈ r, u ∉ avoid) (hlast : (x :: r).getLast? = some w) :
    LeadsPast g avoid x w := by
  induction r generalizing x with
  | nil =>
    have hxw : x = w := by simpa using hlast
    exact hxw ▸ .refl
  | cons y r ih =>
    obtain ⟨hxy, hrest⟩ := List.isChain_cons_cons.mp hchain
    have hy : y ∉ avoid := havoid y List.mem_cons_self
    rw [List.getLast?_cons_cons] at hlast
    exact .head ⟨hxy, hy⟩ (ih hrest (fun u hu => havoid u (List.mem_cons_of_mem y hu)) hlast)

/-- Where a settled fill leads, as long as it does not lead back, has been left. -/
theorem SearchState.Settled.left_of_chain {onPath r : List Nat} {x w : Nat}
    (h : s.Settled g onPath x) (hchain : (x :: r).IsChain g.Fills)
    (hfresh : ∀ u ∈ x :: r, u ∉ onPath) (hlast : (x :: r).getLast? = some w) : s.Left g w := by
  have hpast : LeadsPast g onPath x w :=
    leadsPast_of_chain hchain (fun u hu => hfresh u (List.mem_cons_of_mem x hu)) hlast
  exact h.left (hfresh x List.mem_cons_self) w hpast

/-- Fills are followed in ascending order, so a smaller one has been followed before. -/
theorem mem_followed_of_lt {u v x : Nat} {followed pending : List Nat}
    (hsplit : g.targets u = followed ++ v :: pending) (hfill : g.Fills u x) (hxv : x < v) :
    x ∈ followed := by
  have hsorted := g.pairwise_targets u
  rw [hsplit] at hsorted
  rw [Fills, hsplit] at hfill
  rcases List.mem_append.mp hfill with hx | hx
  · exact hx
  · rcases List.mem_cons.mp hx with rfl | hx
    · exact absurd hxv (Nat.lt_irrefl x)
    · have hvx : v < x := List.rel_of_pairwise_cons (List.pairwise_append.mp hsorted).2.1 hx
      exact absurd hxv (Nat.lt_asymm hvx)

theorem Trail.chain {v : Nat} {outer : List Frame} (h : Trail g s v outer) :
    (v :: names outer).reverse.IsChain g.Fills := by
  rw [List.isChain_reverse]
  induction outer generalizing v with
  | nil => exact List.isChain_singleton v
  | cons f outer ih =>
    obtain ⟨⟨done, hdone, _⟩, hrest⟩ := h
    have hfill : g.Fills f.universeId v := by
      rw [Fills, hdone]
      exact List.mem_append_right _ List.mem_cons_self
    exact List.isChain_cons_cons.mpr ⟨hfill, ih hrest⟩

theorem reverse_names_cons (v : Nat) (f : Frame) (outer : List Frame) :
    (v :: names (f :: outer)).reverse = (f.universeId :: names outer).reverse ++ [v] := by
  simp [names]

/-- No path to a universe that has not been left comes before the path of the search: it would
branch off towards a smaller universe, whose fill is settled. -/
theorem Trail.compare (hg : g.WellFormed) {v w : Nat} {outer : List Frame} {q : List Nat}
    (h : Trail g s v outer) (hq : IsPathTo g.Fills q w) (hw : w ∈ g.universes)
    (hleft : ¬ s.Left g w) :
    (v :: names outer).reverse <+: q ∨ q <+: (v :: names outer).reverse ∨
      Precedes (v :: names outer).reverse q := by
  induction outer generalizing v with
  | nil =>
    obtain ⟨x, r, rfl⟩ := List.exists_cons_of_ne_nil hq.ne_nil
    rcases Nat.lt_trichotomy x v with hxv | rfl | hvx
    · have hx : x ∈ g.universes := by
        cases r with
        | nil =>
          have hxw : x = w := by simpa using hq.last
          exact hxw ▸ hw
        | cons y r => exact hg.owner_mem (List.isChain_cons_cons.mp hq.chain).1
      exact absurd ((h x hx hxv).left_of_chain hq.chain (fun u _ => List.not_mem_nil) hq.last) hleft
    · exact .inl ⟨r, rfl⟩
    · exact .inr (.inr ⟨[], v, x, [], r, rfl, rfl, hvx⟩)
  | cons f outer ih =>
    obtain ⟨⟨done, hdone, hsettled⟩, hrest⟩ := h
    rw [reverse_names_cons]
    rcases ih hrest with ⟨r, hr⟩ | hshort | hprecedes
    · cases r with
      | nil =>
        rw [List.append_nil] at hr
        exact .inr (.inl (hr ▸ List.prefix_append _ _))
      | cons x r =>
        have hfill : g.Fills f.universeId x := by
          have hchain := hr ▸ hq.chain
          refine (List.isChain_append.mp hchain).2.2 f.universeId ?_ x (by simp)
          simp
        rcases Nat.lt_trichotomy x v with hxv | rfl | hvx
        · -- a smaller fill has been followed before the one to `v`
          have hx : x ∈ done := mem_followed_of_lt hdone hfill hxv
          have hnodup := hr ▸ hq.nodup
          have hfresh : ∀ u ∈ x :: r, u ∉ names (f :: outer) := by
            intro u hu hmem
            have hmem' : u ∈ (f.universeId :: names outer).reverse := List.mem_reverse.mpr hmem
            exact (List.nodup_append.mp hnodup).2.2 u hmem' u hu rfl
          have hlast : (x :: r).getLast? = some w := by
            rw [← hq.last, ← hr, List.getLast?_append_of_ne_nil _ (List.cons_ne_nil x r)]
          have hchain : (x :: r).IsChain g.Fills := (hr ▸ hq.chain).right_of_append
          exact absurd ((hsettled x hx).left_of_chain hchain hfresh hlast) hleft
        · exact .inl ⟨r, by simpa using hr⟩
        · exact .inr (.inr ⟨_, v, x, [], r, rfl, hr.symm, hvx⟩)
    · exact .inr (.inl (hshort.trans (List.prefix_append _ _)))
    · exact .inr (.inr (hprecedes.append [v]))

/-- The search comes to every universe along the first path to it. -/
theorem Trail.isFirstPath (hg : g.WellFormed) {v : Nat} {outer : List Frame}
    (h : Trail g s v outer) (hnodup : (v :: names outer).Nodup) (hv : v ∈ g.universes)
    (hleft : ¬ s.Left g v) : IsFirstPath g.Fills (v :: names outer).reverse v where
  chain := h.chain
  nodup := List.nodup_reverse.mpr hnodup
  last := by simp
  first q hq := by
    rcases h.compare hg hq hv hleft with hshort | ⟨r, hr⟩ | hprecedes
    · exact not_lt.mp hshort.le
    · -- `v` stands at the end of the path only, so `q` is all of it
      cases r with
      | nil => exact le_of_eq (by rw [← hr, List.append_nil])
      | cons x r =>
        have hd : (q ++ x :: r).Nodup := hr ▸ List.nodup_reverse.mpr hnodup
        have hlast : v ∈ (x :: r).getLast? := by
          rw [← List.getLast?_append_of_ne_nil q (List.cons_ne_nil x r), hr]
          simp
        exact absurd rfl
          ((List.nodup_append.mp hd).2.2 v hq.last_mem v (List.mem_of_getLast? hlast))
    · exact le_of_lt hprecedes.lt

end TransportDeck.FillGraph
