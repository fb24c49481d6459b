import Mathlib.Data.List.Find
import TransportDeck.Proofs.Like.Chain
import TransportDeck.Proofs.Like.Overrides
import TransportDeck.Proofs.Reading.KeepFirst

namespace TransportDeck

variable {cells chain : List Cell} {root c : Cell}

namespace Cell

def overrides (c : Cell) : KeywordGroups :=
  c.params.other.filter isOverride

def withoutOverrides (c : Cell) : Cell :=
  { c with params := { c.params with other := c.params.other.filter fun k => !isOverride k } }

theorem isOverride_of_mem_overrides : ∀ keyword ∈ c.overrides, isOverride keyword :=
  fun _ h => (List.mem_filter.mp h).2

theorem settle_eq (c : Cell) : c.settle.1 = c.withoutOverrides.withLastSet c.overrides := by
  rw [← applyOverrides_eq _ isOverride_of_mem_overrides]
  unfold settle
  dsimp only
  split
  · rfl
  · rfl

theorem overrides_overBase (base own : Cell) :
    (base.overBase own).overrides = laidOver base.overrides own.overrides :=
  filter_laidOver (fun name => name == "mat" || name == "rho") base.params.other own.params.other

theorem withoutOverrides_withoutOverrides (c : Cell) :
    c.withoutOverrides.withoutOverrides = c.withoutOverrides := by
  simp [withoutOverrides]

/-- The other keywords come out the same if those of the base are removed first. -/
theorem withoutOverrides_overBase (base own : Cell) :
    (base.withoutOverrides.overBase own).withoutOverrides =
      (base.overBase own).withoutOverrides := by
  have hother : (laidOver (base.params.other.filter fun k => !isOverride k) own.params.other).filter
        (fun k => !isOverride k) =
      (laidOver base.params.other own.params.other).filter fun k => !isOverride k := by
    have hfilter (lower upper : KeywordGroups) :
        (laidOver lower upper).filter (fun k => !isOverride k) =
          laidOver (lower.filter fun k => !isOverride k) (upper.filter fun k => !isOverride k) :=
      filter_laidOver (fun name => !(name == "mat" || name == "rho")) lower upper
    rw [hfilter, hfilter, List.filter_filter]
    simp only [Bool.and_self]
  exact congrArg (fun other =>
    { base.overBase own with params := { (base.overBase own).params with other } }) hother

end Cell

def chainOverrides (root : Cell) (chain : List Cell) : KeywordGroups :=
  chain.foldl (fun kept c => laidOver kept c.overrides) root.overrides

theorem overrides_foldl_overBase (root : Cell) (chain : List Cell) :
    (chain.foldl Cell.overBase root).overrides = chainOverrides root chain := by
  induction chain generalizing root with
  | nil => rfl
  | cons c rest ih =>
    rw [List.foldl_cons, ih, chainOverrides, Cell.overrides_overBase]
    rfl

/-- Laying cells over a full definition leaves its material, density and region as they are. -/
theorem foldl_overBase_keeps (root : Cell) (chain : List Cell) :
    (chain.foldl Cell.overBase root).material = root.material ∧
      (chain.foldl Cell.overBase root).density = root.density ∧
      (chain.foldl Cell.overBase root).region = root.region := by
  induction chain generalizing root with
  | nil => exact ⟨rfl, rfl, rfl⟩
  | cons c rest ih => exact ih (root.overBase c)

/-- The cell on top of a chain gives the result its name. -/
theorem IsLikeChain.foldl_overBase (h : IsLikeChain cells root chain c) :
    (chain.foldl Cell.overBase root).number = c.number ∧
      (chain.foldl Cell.overBase root).span = c.span ∧
      (chain.foldl Cell.overBase root).like = c.like := by
  cases h with
  | full => exact ⟨rfl, rfl, rfl⟩
  | like =>
    rw [List.foldl_append]
    exact ⟨rfl, rfl, rfl⟩

namespace Cell

theorem expand_full (hfull : c.like = none) : (c.expand cells).1 = c := by
  rw [expand, hfull]

theorem expand_chain (hd : (cells.map (·.number)).Nodup) (h : IsLikeChain cells root chain c)
    (hne : chain ≠ []) : (c.expand cells).1 = (chain.foldl overBase root).settle.1 := by
  obtain ⟨base, hlike⟩ := Option.ne_none_iff_exists'.mp (mt h.like_eq_none_iff.mp hne)
  rw [expand, hlike]
  simp only [(followLike_complete_iff hd h.mem).mpr h]

/-- A cell stays as written, or it is what its chain gives once settled. -/
theorem expand_cases (hd : (cells.map (·.number)).Nodup) (hc : c ∈ cells) :
    (c.expand cells).1 = c ∨
      ∃ root chain, IsLikeChain cells root chain c ∧
        (c.expand cells).1 = (chain.foldl overBase root).settle.1 := by
  cases hlike : c.like with
  | none => exact .inl (expand_full hlike)
  | some base =>
    cases hfollow : followLike cells [] c.number with
    | complete chain root =>
      have hchain := (followLike_complete_iff hd hc).mp hfollow
      have hne : chain ≠ [] := fun hnil => by
        rw [hchain.like_eq_none_iff.mpr hnil] at hlike
        cases hlike
      exact .inr ⟨root, chain, hchain, expand_chain hd hchain hne⟩
    | missing number => rw [expand, hlike]; simp only [hfollow]; exact .inl trivial
    | loop numbers => rw [expand, hlike]; simp only [hfollow]; exact .inl trivial

/-- Whatever becomes of a cell, it keeps its number, its span and its base. -/
theorem expand_keeps (hd : (cells.map (·.number)).Nodup) (hc : c ∈ cells) :
    (c.expand cells).1.number = c.number ∧ (c.expand cells).1.span = c.span ∧
      (c.expand cells).1.like = c.like := by
  rcases expand_cases hd hc with hsame | ⟨root, chain, hchain, hexpand⟩
  · rw [hsame]
    exact ⟨rfl, rfl, rfl⟩
  · rw [hexpand, settle_eq]
    exact hchain.foldl_overBase

/-- A cell that nothing is reported about has a chain. -/
theorem exists_chain_of_clean (hd : (cells.map (·.number)).Nodup) (hc : c ∈ cells)
    (hclean : ∀ r ∈ (c.expand cells).2, r.isError = false) :
    ∃ root chain, IsLikeChain cells root chain c := by
  cases hlike : c.like with
  | none => exact ⟨c, [], .full hc hlike⟩
  | some base =>
    rw [expand, hlike] at hclean
    cases hfollow : followLike cells [] c.number with
    | complete chain root => exact ⟨root, chain, (followLike_complete_iff hd hc).mp hfollow⟩
    | missing number =>
      simp only [hfollow] at hclean
      have herror := hclean _ (List.mem_singleton_self _)
      exact Bool.noConfusion herror
    | loop numbers =>
      simp only [hfollow] at hclean
      have herror := hclean _ (List.mem_singleton_self _)
      exact Bool.noConfusion herror

end Cell

theorem nodup_number_ofBlocks (blocks : Blocks) :
    ((Reading.ofBlocks blocks).deck.cells.map (·.number)).Nodup := by
  have hd := blocks.nodup_number_writtenCells
  have hnumbers : (Reading.ofBlocks blocks).deck.cells.map (·.number) =
      blocks.writtenCells.map (·.number) := by
    rw [Reading.cells_ofBlocks, List.map_map]
    apply List.map_congr_left
    exact fun c hc => (Cell.expand_keeps hd hc).1
  exact hnumbers ▸ hd

/-- What holds of the written cells, and is kept when a cell is laid over its base and when it is
settled, holds of the cells of the deck. -/
theorem Reading.forall_cells {blocks : Blocks} {P : Cell → Prop}
    (hwritten : ∀ c ∈ blocks.writtenCells, P c)
    (hover : ∀ base own, P base → P own → P (base.overBase own))
    (hsettle : ∀ c, P c → P c.settle.1) : ∀ c ∈ (Reading.ofBlocks blocks).deck.cells, P c := by
  have hchain {chain : List Cell} : ∀ {root : Cell}, P root → (∀ c ∈ chain, P c) →
      P (chain.foldl Cell.overBase root) := by
    induction chain with
    | nil => exact fun hroot _ => hroot
    | cons c rest ih =>
      intro root hroot habove
      obtain ⟨hc, hrest⟩ := List.forall_mem_cons.mp habove
      exact ih (hover root c hroot hc) hrest
  rw [cells_ofBlocks, List.forall_mem_map]
  intro own hown
  rcases Cell.expand_cases blocks.nodup_number_writtenCells hown with
    hsame | ⟨root, chain, hlike, hexpand⟩
  · rw [hsame]
    exact hwritten own hown
  · rw [hexpand]
    apply hsettle
    exact hchain (hwritten root (hlike.subset List.mem_cons_self))
      fun c hc => hwritten c (hlike.subset (List.mem_cons_of_mem _ hc))

/-- The deck holds every written cell in full, under its number. -/
theorem findCell?_ofBlocks {blocks : Blocks} (hc : c ∈ blocks.writtenCells) :
    (Reading.ofBlocks blocks).deck.findCell? c.number =
      some (c.expand blocks.writtenCells).1 := by
  have hd := blocks.nodup_number_writtenCells
  rw [Deck.findCell?, Reading.cells_ofBlocks, List.find?_map]
  have hsame : blocks.writtenCells.find? ((fun x => x.number == c.number) ∘
      fun x => (x.expand blocks.writtenCells).1) =
        blocks.writtenCells.find? fun x => x.number == c.number := by
    refine List.find?_congr fun x hx => ?_
    simp only [Function.comp_apply, (Cell.expand_keeps hd hx).1]
  rw [hsame, find?_number hd hc, Option.map_some]

/-- What is reported about the base of a cell comes after the cell cards and before the surfaces. -/
theorem reports_expand_subset {blocks : Blocks} (hc : c ∈ blocks.writtenCells) :
    (c.expand blocks.writtenCells).2 ⊆ (Reading.ofBlocks blocks).reports := by
  intro r hr
  have hlikeReports : r ∈ (expandLike blocks.writtenCells).2 :=
    List.mem_flatMap.mpr ⟨_, List.mem_map_of_mem hc, hr⟩
  simp only [Reading.ofBlocks, List.mem_append]
  exact .inl (.inl (.inr hlikeReports))

/-- In a deck that was read without errors every base is a cell of the deck. -/
theorem exists_base_ofBlocks {blocks : Blocks}
    (hclean : ∀ r ∈ (Reading.ofBlocks blocks).reports, r.isError = false)
    (hc : c ∈ (Reading.ofBlocks blocks).deck.cells) {number : Nat}
    (hlike : c.like = some number) :
    ∃ base ∈ (Reading.ofBlocks blocks).deck.cells, base.number = number := by
  have hd := blocks.nodup_number_writtenCells
  rw [Reading.cells_ofBlocks] at hc ⊢
  obtain ⟨own, hown, rfl⟩ := List.mem_map.mp hc
  rw [(Cell.expand_keeps hd hown).2.2] at hlike
  obtain ⟨root, chain, hchain⟩ :=
    Cell.exists_chain_of_clean hd hown fun r hr => hclean r (reports_expand_subset hown hr)
  cases hchain with
  | full _ hfull => rw [hlike] at hfull; cases hfull
  | @like lower base _ hbase _ hlike' =>
    rw [hlike] at hlike'
    refine ⟨_, List.mem_map_of_mem hbase.mem, ?_⟩
    rw [(Cell.expand_keeps hd hbase.mem).1, Option.some.inj hlike']

end TransportDeck
