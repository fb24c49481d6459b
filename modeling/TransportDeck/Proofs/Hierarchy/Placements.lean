import Mathlib.Algebra.GroupWithZero.Nat
import TransportDeck.Proofs.Hierarchy.IdleUniverses

namespace TransportDeck

open FillGraph

inductive Fill.Names : Fill → Nat → Prop
  | whole {u : Int} {transform : Option TransformSpec} : Names (.simple u transform) u.natAbs
  | element {a : FillArray} {e : FillEntry} (h : e ∈ a.entries) :
      Names (.array a) e.signedUniverse.natAbs

theorem Fill.mem_targets_iff {f : Fill} {v : Nat} : v ∈ f.targets ↔ f.Names v := by
  constructor
  · intro hv
    cases f with
    | simple u transform =>
      rw [List.mem_singleton.mp hv]
      exact .whole
    | array a =>
      obtain ⟨e, he, rfl⟩ := List.mem_map.mp hv
      exact .element he
  · intro hv
    cases hv with
    | whole => exact List.mem_singleton_self _
    | element he => exact List.mem_map_of_mem he

/-- How often a cell places a universe. Elements of a lattice's own universe do not count. -/
def Cell.timesPlaced (c : Cell) (v : Nat) : Nat :=
  match c.params.fill with
  | none => 0
  | some (.simple u _) => if u.natAbs = v then 1 else 0
  | some (.array a) =>
    if v = c.universeId then 0 else a.entries.countP fun e => e.signedUniverse.natAbs = v

def Deck.timesPlaced (d : Deck) (u v : Nat) : Nat :=
  ((d.cells.filter fun c => c.universeId = u).map fun c => c.timesPlaced v).sum

theorem Cell.count_placements (c : Cell) (v : Nat) : c.placements.count v = c.timesPlaced v := by
  unfold placements timesPlaced
  cases c.params.fill with
  | none => rfl
  | some f =>
    cases f with
    | simple u transform => simp [List.count_singleton]
    | array a =>
      dsimp only
      by_cases hown : v = c.universeId
      · -- the lattice's own universe has been filtered out
        have hnone : v ∉ (Fill.array a).targets.filter (· != c.universeId) := by simp [hown]
        rw [if_pos hown, List.count_eq_zero.mpr hnone]
      · rw [if_neg hown, List.count_filter (by simpa using hown), Fill.targets, List.count,
          List.countP_map]
        apply List.countP_congr
        intro e _
        simp

namespace FillGraph

variable {d : Deck} {u v : Nat}

theorem count_placementsIn (d : Deck) (u v : Nat) :
    (placementsIn d u).count v = d.timesPlaced u v := by
  have hcells : (d.cells.filter fun c => c.universeId == u) =
      d.cells.filter fun c => c.universeId = u := by
    apply List.filter_congr
    intro c _
    rw [Bool.eq_iff_iff, beq_iff_eq, decide_eq_true_iff]
  have hcount : (fun c : Cell => c.placements.count v) = fun c => c.timesPlaced v :=
    funext fun c => c.count_placements v
  calc (placementsIn d u).count v
      = ((d.cells.filter fun c => c.universeId == u).map fun c => c.placements.count v).sum :=
        List.count_flatMap
    _ = d.timesPlaced u v := by rw [hcells, hcount, Deck.timesPlaced]

/-- A universe has a row in the graph if its cells place something. -/
theorem find?_fills (d : Deck) (u : Nat) : (ofDeck d).fills.find? u =
    if placementsIn d u = [] then none else some (countEach (placementsIn d u)) := by
  have howner : u ∈ (d.cells.filter fun c => !c.placements.isEmpty).map (·.universeId) ↔
      ∃ v, v ∈ placementsIn d u := by
    simp only [placementsIn, List.mem_map, List.mem_filter, List.mem_flatMap, beq_iff_eq,
      Bool.not_eq_true', List.isEmpty_eq_false_iff_exists_mem]
    constructor
    · rintro ⟨c, ⟨hc, v, hv⟩, hu⟩
      exact ⟨v, c, ⟨hc, hu⟩, hv⟩
    · rintro ⟨v, c, ⟨hc, hu⟩, hv⟩
      exact ⟨c, ⟨hc, v, hv⟩, hu⟩
  by_cases hnone : placementsIn d u = []
  · have habsent : ¬ ∃ v, v ∈ placementsIn d u := by simp [hnone]
    rw [if_pos hnone]
    exact find?_tabulate_of_not_mem _ (mt howner.mp habsent)
  · rw [if_neg hnone]
    exact find?_tabulate _ (howner.mpr (List.exists_mem_of_ne_nil _ hnone))

theorem find?_row (d : Deck) (u v : Nat) :
    ((ofDeck d).fills.find? u).bind (·.find? v) =
      if d.timesPlaced u v = 0 then none else some (d.timesPlaced u v) := by
  have hplaced : d.timesPlaced u v = 0 ↔ v ∉ placementsIn d u := by
    rw [← count_placementsIn, List.count_eq_zero]
  rw [find?_fills]
  by_cases hnone : placementsIn d u = []
  · have hzero : d.timesPlaced u v = 0 := hplaced.mpr (by simp [hnone])
    rw [if_pos hnone, if_pos hzero, Option.bind_none]
  · rw [if_neg hnone, Option.bind_some, find?_countEach, count_placementsIn]
    by_cases hv : v ∈ placementsIn d u
    · rw [if_pos hv, if_neg fun hzero => hplaced.mp hzero hv]
    · rw [if_neg hv, if_pos (hplaced.mpr hv)]

theorem row_ne_empty {counts : Table Nat Nat} (h : (ofDeck d).fills.find? u = some counts) :
    counts.keys ≠ [] := by
  rw [find?_fills] at h
  split at h
  · cases h
  · next hplaces =>
    cases h
    obtain ⟨v, hv⟩ := List.exists_mem_of_ne_nil _ hplaces
    exact List.ne_nil_of_mem (mem_keys_tabulate.mpr hv)

theorem fills_iff_count {g : FillGraph} :
    g.Fills u v ↔ ∃ n, (g.fills.find? u).bind (·.find? v) = some n := by
  simp only [fills_iff_row, Table.mem_keys_iff, Option.bind_eq_some_iff]
  constructor
  · rintro ⟨row, hrow, n, hn⟩
    exact ⟨n, row, hrow, hn⟩
  · rintro ⟨n, row, hrow, hn⟩
    exact ⟨row, hrow, n, hn⟩

/-- A universe is found under another if it holds fills of that one. -/
theorem mem_owners_iff {g : FillGraph} :
    (∃ owners, g.filledBy.find? v = some owners ∧ u ∈ owners) ↔ g.Fills u v := by
  have howners :
      u ∈ (g.fills.entries.filter fun e => e.2.contains v).map (·.1) ↔ g.Fills u v := by
    simp only [fills_iff_row, List.mem_map, List.mem_filter, Table.contains_iff_mem_keys,
      Table.find?_eq_some_iff_mem]
    constructor
    · rintro ⟨⟨_, counts⟩, ⟨hrow, hv⟩, rfl⟩
      exact ⟨counts, hrow, hv⟩
    · rintro ⟨counts, hrow, hv⟩
      exact ⟨(u, counts), ⟨hrow, hv⟩, rfl⟩
  constructor
  · rintro ⟨owners, hfound, hu⟩
    have hkey : v ∈ g.fills.values.flatMap Table.keys :=
      mem_keys_tabulate.mp (Table.mem_keys_iff.mpr ⟨owners, hfound⟩)
    rw [filledBy, find?_tabulate _ hkey, Option.some.injEq] at hfound
    exact howners.mp (hfound ▸ hu)
  · intro hfills
    have hkey : v ∈ g.fills.values.flatMap Table.keys :=
      mem_keys_tabulate.mp (mem_keys_filledBy.mpr ⟨u, hfills⟩)
    exact ⟨_, find?_tabulate _ hkey, howners.mpr hfills⟩

/-- Owners are listed for universes that are filled in, in ascending order. -/
theorem owners_ascending {g : FillGraph} {owners : List Nat}
    (h : g.filledBy.find? v = some owners) : owners ≠ [] ∧ owners.Pairwise (· < ·) := by
  have hfilled : v ∈ g.filledBy.keys := Table.mem_keys_iff.mpr ⟨owners, h⟩
  constructor
  · obtain ⟨u, hfills⟩ := mem_keys_filledBy.mp hfilled
    obtain ⟨owners', hfound, hu⟩ := mem_owners_iff.mpr hfills
    rw [h, Option.some.injEq] at hfound
    rw [hfound]
    exact List.ne_nil_of_mem hu
  · rw [filledBy, find?_tabulate _ (mem_keys_tabulate.mp hfilled), Option.some.injEq] at h
    rw [← h]
    exact List.pairwise_map.mpr (g.fills.ascending.filter _)

end FillGraph

namespace Hierarchy

structure Exact (h : Hierarchy) (d : Deck) : Prop where
  ascending : h.universes.Pairwise (· < ·)
  mem_universes : ∀ w, w ∈ h.universes ↔
    w = 0 ∨ ∃ c ∈ d.cells, c.universeId = w ∨ ∃ f, c.params.fill = some f ∧ f.Names w
  counts : ∀ u v, (h.fills.find? u).bind (·.find? v) =
    if d.timesPlaced u v = 0 then none else some (d.timesPlaced u v)
  rows : ∀ u row, h.fills.find? u = some row →
    row.keys ≠ [] ∧ u ∈ h.universes ∧ ∀ v ∈ row.keys, v ∈ h.universes
  inverse : ∀ u v, (∃ owners, h.filledBy.find? v = some owners ∧ u ∈ owners) ↔
    ∃ count, (h.fills.find? u).bind (·.find? v) = some count
  owners : ∀ v owners, h.filledBy.find? v = some owners → owners ≠ [] ∧ owners.Pairwise (· < ·)

/-- The fills of every deck are counted one by one, cell by cell and element by element. A universe
and one filled into it have an entry if there is something to count, the owners of a universe are
those that have such an entry, and all of them are universes of the deck. -/
theorem placements_exact (d : Deck) : (ofDeck d).Exact d where
  ascending := (wellFormed_ofDeck d).sorted
  mem_universes := by
    intro w
    change w ∈ (FillGraph.ofDeck d).universes ↔ _
    have htargets (c : Cell) : w ∈ fillTargets c ↔ ∃ f, c.params.fill = some f ∧ f.Names w := by
      unfold fillTargets
      cases c.params.fill <;> simp [Fill.mem_targets_iff]
    simp only [mem_universes_ofDeck, htargets, eq_comm]
  counts := find?_row d
  rows := by
    intro u row hrow
    have hne : row.keys ≠ [] := row_ne_empty hrow
    have hfills : ∀ v ∈ row.keys, (FillGraph.ofDeck d).Fills u v :=
      fun v hv => fills_iff_row.mpr ⟨row, hrow, hv⟩
    obtain ⟨v, hv⟩ := List.exists_mem_of_ne_nil _ hne
    exact ⟨hne, (wellFormed_ofDeck d).owner_mem (hfills v hv),
      fun w hw => (wellFormed_ofDeck d).filled_mem (hfills w hw)⟩
  inverse := by
    intro u v
    change (∃ owners, (FillGraph.ofDeck d).filledBy.find? v = some owners ∧ u ∈ owners) ↔
      ∃ count, ((FillGraph.ofDeck d).fills.find? u).bind (·.find? v) = some count
    rw [mem_owners_iff, fills_iff_count]
  owners := fun _ _ => owners_ascending

def latticeAndWhole : Deck where
  title := ""
  messages := []
  cells :=
    let elements : List FillEntry := [2, -1, -2147483648, -2].map fun u => { signedUniverse := u }
    [(1, -1, .array ⟨⟨0, 3⟩, ⟨0, 0⟩, ⟨0, 0⟩, elements⟩), (2, 1, .simple 2 none)].map
      fun (number, u, fill) => { number, params := { signedUniverse := some u, fill := some fill } }
  surfaces := []
  data := []

example : [1, 2, 2147483648].map (latticeAndWhole.timesPlaced 1) = [0, 3, 1] := by decide +kernel

end Hierarchy

end TransportDeck
