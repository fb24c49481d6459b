import Mathlib.Data.List.Nodup
import TransportDeck.Proofs.CrossRefs.Targets

namespace TransportDeck

/-- A cell is made of its material unless it is void. -/
def Cell.MadeOf (c : Cell) (m : Nat) : Prop :=
  c.material ≠ 0 ∧ c.material = m

structure Deck.Lists (d : Deck) (p : Cell → Prop) (numbers : List Nat) : Prop where
  nodup : numbers.Nodup
  in_order : numbers.Sublist (d.cells.map (·.number))
  mem_iff : ∀ c ∈ d.cells, c.number ∈ numbers ↔ p c

/-- The entry of a table is the list of these cells; without such cells there is no entry. -/
def Deck.ListsAt (d : Deck) (p : Cell → Prop) : Option (List Nat) → Prop
  | some numbers => d.Lists p numbers ∧ numbers ≠ []
  | none => ∀ c ∈ d.cells, ¬ p c

namespace CrossRefs

variable {d : Deck} {P : Cell → Prop}

theorem lists_cellsWhere (hd : (d.cells.map (·.number)).Nodup) {p : Cell → Bool}
    (hp : ∀ c, p c = true ↔ P c) : d.Lists P (cellsWhere d p) where
  nodup := hd.sublist (List.filter_sublist.map _)
  in_order := List.filter_sublist.map _
  mem_iff := by
    intro c hc
    constructor
    · intro hmem
      obtain ⟨other, hother, hnumber⟩ := List.mem_map.mp hmem
      obtain ⟨hin, hholds⟩ := List.mem_filter.mp hother
      have hsame : other = c := List.inj_on_of_nodup_map hd hin hc hnumber
      exact (hp c).mp (hsame ▸ hholds)
    · intro hholds
      exact List.mem_map_of_mem (List.mem_filter.mpr ⟨hc, (hp c).mpr hholds⟩)

theorem listsAt_tabulate (hd : (d.cells.map (·.number)).Nodup) {keys : List Nat} {k : Nat}
    {p : Nat → Cell → Bool} (hp : ∀ c, p k c = true ↔ P c)
    (hkeys : k ∈ keys ↔ ∃ c ∈ d.cells, P c) :
    d.ListsAt P ((tabulate keys fun k => cellsWhere d (p k)).find? k) := by
  have hlists := lists_cellsWhere hd hp
  by_cases hk : k ∈ keys
  · rw [find?_tabulate _ hk]
    obtain ⟨c, hc, hholds⟩ := hkeys.mp hk
    exact ⟨hlists, List.ne_nil_of_mem ((hlists.mem_iff c hc).mpr hholds)⟩
  · rw [find?_tabulate_of_not_mem _ hk]
    intro c hc hholds
    exact hk (hkeys.mpr ⟨c, hc, hholds⟩)

theorem listsAt_surfaceUsers (hd : (d.cells.map (·.number)).Nodup) (s : Nat) :
    d.ListsAt (fun c => s ∈ c.region.surfaceIds) ((ofDeck d).surfaceUsers.find? s) := by
  refine listsAt_tabulate (p := fun s c => c.region.surfaceIds.contains s) hd ?_ ?_
  · exact fun _ => List.contains_iff_mem
  · exact List.mem_flatMap

theorem mem_keys_materialUsers {m : Nat} :
    m ∈ (ofDeck d).materialUsers.keys ↔ ∃ c ∈ d.cells, c.MadeOf m := by
  change m ∈ (tabulate _ _).keys ↔ _
  rw [mem_keys_tabulate, List.mem_filter, List.mem_map, bne_iff_ne]
  constructor
  · rintro ⟨⟨c, hc, rfl⟩, hfilled⟩
    exact ⟨c, hc, hfilled, rfl⟩
  · rintro ⟨c, hc, hfilled, rfl⟩
    exact ⟨⟨c, hc, rfl⟩, hfilled⟩

theorem listsAt_materialUsers (hd : (d.cells.map (·.number)).Nodup) (m : Nat) :
    d.ListsAt (fun c => c.MadeOf m) ((ofDeck d).materialUsers.find? m) := by
  have hkeys := mem_keys_materialUsers (d := d) (m := m)
  change m ∈ (tabulate _ _).keys ↔ _ at hkeys
  rw [mem_keys_tabulate] at hkeys
  by_cases hvoid : m = 0
  · -- zero stands for void and is never a key
    subst hvoid
    have habsent : 0 ∉ (d.cells.map (·.material)).filter (· != 0) := by simp
    change d.ListsAt _ ((tabulate _ _).find? 0)
    rw [find?_tabulate_of_not_mem _ habsent]
    intro c _ ⟨hfilled, hzero⟩
    exact hfilled hzero
  · refine listsAt_tabulate (p := fun m c => c.material == m) hd ?_ hkeys
    intro c
    rw [beq_iff_eq, Cell.MadeOf]
    constructor
    · rintro rfl
      exact ⟨hvoid, rfl⟩
    · exact And.right

theorem lists_of_find?_universes (hd : (d.cells.map (·.number)).Nodup) {u : Nat} {members : List Nat}
    (h : (ofDeck d).universes.find? u = some members) :
    d.Lists (fun c => c.universeId = u) members := by
  have hu : u ∈ (ofDeck d).universes.keys := Table.mem_keys_iff.mpr ⟨members, h⟩
  change u ∈ (tabulate _ _).keys at hu
  change (tabulate _ _).find? u = some members at h
  rw [find?_tabulate _ (mem_keys_tabulate.mp hu), Option.some.injEq] at h
  exact h ▸ lists_cellsWhere hd fun c => beq_iff_eq

theorem exists_members_of_cell (hd : (d.cells.map (·.number)).Nodup) {c : Cell} (hc : c ∈ d.cells) :
    ∃ members, (ofDeck d).universes.find? c.universeId = some members ∧ c.number ∈ members := by
  obtain ⟨members, hmembers⟩ := Table.mem_keys_iff.mp (mem_keys_universes.mpr (.inr ⟨c, hc, rfl⟩))
  exact ⟨members, hmembers, ((lists_of_find?_universes hd hmembers).mem_iff c hc).mpr rfl⟩

theorem nodup_members (hd : (d.cells.map (·.number)).Nodup) :
    (ofDeck d).universes.values.flatten.Nodup := by
  have hlists {entry : Nat × List Nat} (hentry : entry ∈ (ofDeck d).universes.entries) :
      d.Lists (fun c => c.universeId = entry.1) entry.2 :=
    lists_of_find?_universes hd (Table.find?_eq_some_iff_mem.mpr hentry)
  rw [List.nodup_flatten]
  constructor
  · intro members hmembers
    obtain ⟨entry, hentry, rfl⟩ := List.mem_map.mp hmembers
    exact (hlists hentry).nodup
  · refine List.pairwise_map.mpr ((ofDeck d).universes.ascending.imp_of_mem ?_)
    intro earlier later hearlier hlater hlt n hn hn'
    -- a cell of two lists would be in two universes
    obtain ⟨c, hc, rfl⟩ := List.mem_map.mp ((hlists hearlier).in_order.subset hn)
    have hfirst := ((hlists hearlier).mem_iff c hc).mp hn
    have hsecond := ((hlists hlater).mem_iff c hc).mp hn'
    omega

theorem count_members (hd : (d.cells.map (·.number)).Nodup) {c : Cell} (hc : c ∈ d.cells) :
    (ofDeck d).universes.values.flatten.count c.number = 1 := by
  obtain ⟨members, hmembers, hmem⟩ := exists_members_of_cell hd hc
  apply List.count_eq_one_of_mem (nodup_members hd)
  have hentry := Table.find?_eq_some_iff_mem.mp hmembers
  exact List.mem_flatten.mpr ⟨members, List.mem_map_of_mem hentry, hmem⟩

end CrossRefs

end TransportDeck
