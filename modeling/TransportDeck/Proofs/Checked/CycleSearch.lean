import TransportDeck.Proofs.Checked.Steps
import TransportDeck.Proofs.FillGraph.Search

namespace TransportDeck.Checked

open FillGraph

def closedPath (cycle : List Nat) : Option (List Nat) := do
  let start := (cycle.min?.bind fun least => cycle.findIdx? (· == least)).getD 0
  let path := (← from? cycle start) ++ (← upTo? cycle start)
  return path ++ path.head?.toList

inductive Colour where
  | white
  | grey
  | black
  deriving DecidableEq

/-- Where the search stands. The path lists its end last. -/
structure Search where
  colours : Table Nat Colour
  path : List Nat
  found : List Cycle

namespace Search

def colour (s : Search) (u : Nat) : Colour :=
  (s.colours.find? u).getD .white

def enter (s : Search) (u : Nat) : Search :=
  { s with colours := s.colours.insert u .grey, path := s.path ++ [u] }

def leave (s : Search) (u : Nat) : Search :=
  { s with colours := s.colours.insert u .black, path := s.path.dropLast }

def record (s : Search) (u v : Nat) : Option Search :=
  match s.path.findIdx? (· == v) with
  | none => some s
  | some start => do
    let cycle ← closedPath (← from? s.path start)
    if s.found.any fun c => c.path == cycle then return s
    else return { s with found := s.found ++ [⟨cycle, u, v⟩] }

/-- Follows the next fill of the last universe on the path, or leaves it. The frames are those of the
path from its end on. -/
def turn (g : FillGraph) : List Frame × Search → Option (Search ⊕ List Frame × Search)
  | ([], s) => some (.inl s)
  | (⟨u, []⟩ :: outer, s) => some (.inr (outer, s.leave u))
  | (⟨u, v :: pending⟩ :: outer, s) =>
    match s.colour v with
    | .white => some (.inr (⟨v, g.targets v⟩ :: ⟨u, pending⟩ :: outer, s.enter v))
    | .grey => do return .inr (⟨u, pending⟩ :: outer, ← s.record u v)
    | .black => some (.inr (⟨u, pending⟩ :: outer, s))

noncomputable def visit (g : FillGraph) (stack : List Frame) (s : Search) : Option Search :=
  loop (turn g) (stack, s)

noncomputable def visitRoot (g : FillGraph) (s : Search) (root : Nat) : Option Search :=
  match s.colour root with
  | .white => visit g [⟨root, g.targets root⟩] (s.enter root)
  | _ => some s

end Search

noncomputable def cycles (g : FillGraph) : Option (List Cycle) := do
  return (← (0 :: g.universes).foldlM (Search.visitRoot g) ⟨.empty, [], []⟩).found

theorem findIdx?_first {front back : List Nat} {v : Nat} (hv : v ∉ front) :
    (front ++ v :: back).findIdx? (· == v) = some front.length := by
  have hnone : front.findIdx? (· == v) = none :=
    List.findIdx?_eq_none_iff.mpr fun u hu => beq_false_of_ne fun h => hv (h ▸ hu)
  rw [List.findIdx?_append, hnone, List.findIdx?_cons]
  simp

theorem closedPath_eq (cycle : List Nat) : closedPath cycle = some (FillGraph.closedPath cycle) := by
  cases hmin : cycle.min? with
  | none =>
    obtain rfl := List.min?_eq_none_iff.mp hmin
    rfl
  | some least =>
    obtain ⟨front, back, rfl, hfront⟩ :=
      List.eq_append_cons_of_mem (List.min?_eq_some_iff.mp hmin).1
    have hpass : ∀ u ∈ front, (u != least) = true := by
      intro u hu
      exact bne_iff_ne.mpr fun h => hfront (h ▸ hu)
    rw [closedPath, FillGraph.closedPath, hmin, Option.bind_some, findIdx?_first hfront,
      Option.getD_some, from?_eq (by simp), upTo?_eq (by simp)]
    simp [List.dropWhile_append_of_pos hpass, List.takeWhile_append_of_pos hpass]

variable {g : FillGraph} {s : Search} {unvisited : List Nat} {stack : List Frame}

/-- A search in colours that stands where a search by unvisited universes does. -/
structure Search.Tracks (g : FillGraph) (s : Search) (unvisited : List Nat)
    (stack : List Frame) : Prop where
  path : s.path = (names stack).reverse
  nodup : (names stack).Nodup
  unvisited_nodup : unvisited.Nodup
  white : ∀ v ∈ g.universes, s.colour v = .white ↔ v ∈ unvisited
  grey : ∀ v ∈ g.universes, s.colour v = .grey ↔ v ∈ names stack
  named : ∀ u ∈ names stack, u ∈ g.universes
  pending : ∀ f ∈ stack, ∀ v ∈ f.pending, v ∈ g.universes

theorem Search.record_eq {u v : Nat} (h : s.Tracks g unvisited stack) :
    s.record u v = some { s with found := FillGraph.record stack u v s.found } := by
  unfold Search.record
  by_cases hv : v ∈ names stack
  · obtain ⟨front, back, hsplit, hfront⟩ := List.eq_append_cons_of_mem hv
    have hback : v ∉ back.reverse := by
      have hnodup := h.nodup
      rw [hsplit] at hnodup
      rw [List.mem_reverse]
      exact (List.nodup_cons.mp (List.nodup_append.mp hnodup).2.1).1
    have hpass : ∀ w ∈ front, (w != v) = true := fun w hw =>
      bne_iff_ne.mpr fun heq => hfront (heq ▸ hw)
    have hpath : s.path = back.reverse ++ v :: front.reverse := by simp [h.path, hsplit]
    have hcycle : closing (names stack) v = FillGraph.closedPath (v :: front.reverse) := by
      simp [closing, hsplit, List.takeWhile_append_of_pos hpass]
    have hcut : from? s.path back.reverse.length = some (v :: front.reverse) := by
      rw [hpath, from?_eq (by simp), List.drop_left]
    have hstart : s.path.findIdx? (· == v) = some back.reverse.length := by
      rw [hpath, findIdx?_first hback]
    rw [hstart, FillGraph.record_eq, hcycle]
    simp only [hcut, closedPath_eq, Option.bind_eq_bind, Option.bind_some]
    by_cases hold : FillGraph.closedPath (v :: front.reverse) ∈ s.found.map Cycle.path
    · have hany : (s.found.any fun c => c.path == FillGraph.closedPath (v :: front.reverse)) =
          true := by
        obtain ⟨c, hc, heq⟩ := List.mem_map.mp hold
        exact List.any_eq_true.mpr ⟨c, hc, beq_iff_eq.mpr heq⟩
      rw [if_pos hany, if_neg fun hnew => hnew.2 hold]
      rfl
    · have hany : ¬ (s.found.any fun c => c.path == FillGraph.closedPath (v :: front.reverse)) =
          true := by
        intro hany
        obtain ⟨c, hc, heq⟩ := List.any_eq_true.mp hany
        exact hold (List.mem_map.mpr ⟨c, hc, beq_iff_eq.mp heq⟩)
      rw [if_neg hany, if_pos ⟨hv, hold⟩]
      rfl
  · have hnone : s.path.findIdx? (· == v) = none := by
      rw [h.path]
      refine List.findIdx?_eq_none_iff.mpr fun u hu => beq_false_of_ne fun heq => hv ?_
      exact heq ▸ List.mem_reverse.mp hu
    rw [hnone, FillGraph.record_eq, if_neg fun hnew => hv hnew.1]

theorem colour_enter (s : Search) (v w : Nat) :
    (s.enter v).colour w = if w = v then .grey else s.colour w := by
  unfold Search.colour Search.enter
  split
  · next h => rw [h, Table.find?_insert_same]; rfl
  · next h => rw [Table.find?_insert_other _ h]

theorem colour_leave (s : Search) (v w : Nat) :
    (s.leave v).colour w = if w = v then .black else s.colour w := by
  unfold Search.colour Search.leave
  split
  · next h => rw [h, Table.find?_insert_same]; rfl
  · next h => rw [Table.find?_insert_other _ h]

/-- The fills of an unvisited universe come before those that are left over. -/
theorem Search.Tracks.enter (hg : g.WellFormed) (h : s.Tracks g unvisited stack) {v : Nat}
    (hv : v ∈ unvisited) (hmem : v ∈ g.universes) :
    (s.enter v).Tracks g (unvisited.erase v) (⟨v, g.targets v⟩ :: stack) := by
  have hwhite : s.colour v = .white := (h.white v hmem).mpr hv
  have hfree : v ∉ names stack := fun hon => by
    rw [(h.grey v hmem).mpr hon] at hwhite
    cases hwhite
  refine ⟨by simp [Search.enter, names, h.path], List.nodup_cons.mpr ⟨hfree, h.nodup⟩,
    h.unvisited_nodup.erase v, ?_, ?_, ?_, ?_⟩
  · intro w hw
    rw [colour_enter, h.unvisited_nodup.mem_erase_iff]
    split <;> simp [*, h.white w hw]
  · intro w hw
    rw [colour_enter, names, List.map_cons, List.mem_cons]
    split
    · simp [*]
    · next hne => rw [h.grey w hw, or_iff_right hne, names]
  · exact List.forall_mem_cons.mpr ⟨hmem, h.named⟩
  · exact List.forall_mem_cons.mpr ⟨fun w hw => hg.filled_mem hw, h.pending⟩

theorem Search.Tracks.leave {u : Nat} {pending : List Nat} {outer : List Frame}
    (h : s.Tracks g unvisited (⟨u, pending⟩ :: outer)) : (s.leave u).Tracks g unvisited outer := by
  obtain ⟨hfree, hnodup⟩ := List.nodup_cons.mp h.nodup
  have hgrey : s.colour u = .grey :=
    (h.grey u (h.named u List.mem_cons_self)).mpr List.mem_cons_self
  refine ⟨by simp [Search.leave, h.path, names], hnodup, h.unvisited_nodup, ?_, ?_,
    fun w hw => h.named w (List.mem_cons_of_mem u hw), (List.forall_mem_cons.mp h.pending).2⟩
  · intro w hw
    rw [colour_leave, ← h.white w hw]
    split
    · next heq => simp [heq, hgrey]
    · rfl
  · intro w hw
    rw [colour_leave]
    split
    · next heq =>
      simp [heq, show u ∉ names outer from hfree]
    · next hne =>
      rw [h.grey w hw, names, List.map_cons, List.mem_cons, or_iff_right hne, names]

/-- A fill that leads to a universe that has been met is dropped. -/
theorem Search.Tracks.follow {u v : Nat} {pending : List Nat} {outer : List Frame}
    (h : s.Tracks g unvisited (⟨u, v :: pending⟩ :: outer)) (found : List Cycle) :
    Search.Tracks g { s with found } unvisited (⟨u, pending⟩ :: outer) where
  path := h.path
  nodup := h.nodup
  unvisited_nodup := h.unvisited_nodup
  white := h.white
  grey := h.grey
  named := h.named
  pending := by
    obtain ⟨hfirst, hrest⟩ := List.forall_mem_cons.mp h.pending
    exact List.forall_mem_cons.mpr ⟨(List.forall_mem_cons.mp hfirst).2, hrest⟩

theorem visit_turn (stack : List Frame) (s : Search) :
    Search.visit g stack s = Search.turn g (stack, s) >>=
      Sum.elim some fun t => Search.visit g t.1 t.2 :=
  loop_eq _ _

theorem visit_eq (hg : g.WellFormed) (unvisited : List Nat) (found : List Cycle)
    (stack : List Frame) {s : Search} (h : s.Tracks g unvisited stack) (hfound : s.found = found) :
    ∃ s', Search.visit g stack s = some s' ∧ s'.found = (g.explore unvisited found stack).2 ∧
      s'.Tracks g (g.explore unvisited found stack).1 [] := by
  fun_induction explore g unvisited found stack generalizing s with
  | case1 unvisited found => exact ⟨s, by rw [visit_turn]; rfl, hfound, h⟩
  | case2 unvisited found u outer ih =>
    rw [visit_turn]
    exact ih h.leave hfound
  | case3 unvisited found u v pending outer hv ih =>
    have hmem : v ∈ g.universes := h.pending _ List.mem_cons_self v List.mem_cons_self
    rw [visit_turn, Search.turn, (h.white v hmem).mpr hv]
    exact ih ((h.follow s.found).enter hg hv hmem) hfound
  | case4 unvisited found u v pending outer hv ih =>
    have hmem : v ∈ g.universes := h.pending _ List.mem_cons_self v List.mem_cons_self
    subst hfound
    have hnext := h.follow (FillGraph.record (⟨u, pending⟩ :: outer) u v s.found)
    rw [visit_turn, Search.turn]
    cases hcolour : s.colour v with
    | white => exact absurd ((h.white v hmem).mp hcolour) hv
    | grey =>
      simp only [Search.record_eq (h.follow s.found), Option.bind_eq_bind, Option.bind_some,
        Option.pure_def]
      exact ih hnext rfl
    | black =>
      have hoff : v ∉ names (⟨u, pending⟩ :: outer) := fun hon => by
        rw [(h.grey v hmem).mpr hon] at hcolour
        cases hcolour
      have hsame : FillGraph.record (⟨u, pending⟩ :: outer) u v s.found = s.found := by
        rw [FillGraph.record_eq, if_neg fun hnew => hoff hnew.1]
      rw [hsame] at ih hnext ⊢
      exact ih hnext rfl

theorem visitRoot_eq (hg : g.WellFormed) {root : Nat} (hroot : root ∈ g.universes)
    (h : s.Tracks g unvisited []) :
    ∃ s', Search.visitRoot g s root = some s' ∧
      s'.found = (g.searchFrom (unvisited, s.found) root).2 ∧
      s'.Tracks g (g.searchFrom (unvisited, s.found) root).1 [] := by
  unfold Search.visitRoot searchFrom
  split
  · next hwhite =>
    have hmem : root ∈ unvisited := (h.white root hroot).mp hwhite
    rw [if_pos hmem]
    exact visit_eq hg _ _ _ (h.enter hg hmem hroot) rfl
  · next hother =>
    rw [if_neg fun hmem => hother ((h.white root hroot).mpr hmem)]
    exact ⟨s, rfl, rfl, h⟩

theorem foldlM_visitRoot (hg : g.WellFormed) {roots : List Nat} (hroots : ∀ u ∈ roots, u ∈ g.universes)
    (h : s.Tracks g unvisited []) :
    ∃ s', roots.foldlM (Search.visitRoot g) s = some s' ∧
      s'.found = (roots.foldl g.searchFrom (unvisited, s.found)).2 := by
  induction roots generalizing s unvisited with
  | nil => exact ⟨s, rfl, rfl⟩
  | cons root roots ih =>
    obtain ⟨hroot, hrest⟩ := List.forall_mem_cons.mp hroots
    obtain ⟨s', hrun, hfound, htracks⟩ := visitRoot_eq hg hroot h
    rw [List.foldlM_cons, hrun, List.foldl_cons]
    obtain ⟨s'', hrun', hfound'⟩ := ih hrest htracks
    exact ⟨s'', hrun', by rw [hfound', hfound]⟩

theorem cycles_eq (hg : g.WellFormed) : cycles g = some g.cycles := by
  have hstart : Search.Tracks g ⟨.empty, [], []⟩ g.universes [] := by
    refine ⟨rfl, .nil, hg.sorted.imp Nat.ne_of_lt, fun v hv => ?_, fun v hv => ?_, ?_, ?_⟩
    · exact ⟨fun _ => hv, fun _ => rfl⟩
    · have hmet : ¬ Colour.white = .grey := by decide
      exact ⟨fun h => absurd h hmet, fun h => absurd h List.not_mem_nil⟩
    · exact fun u hu => absurd hu List.not_mem_nil
    · exact fun f hf => absurd hf List.not_mem_nil
  have hroots : ∀ u ∈ 0 :: g.universes, u ∈ g.universes :=
    List.forall_mem_cons.mpr ⟨hg.zero_mem, fun u hu => hu⟩
  obtain ⟨s, hrun, hfound⟩ := foldlM_visitRoot hg hroots hstart
  rw [cycles, hrun, FillGraph.cycles]
  exact congrArg some hfound

end TransportDeck.Checked
