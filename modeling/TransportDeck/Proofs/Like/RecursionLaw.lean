import TransportDeck.Proofs.Like.Expand

/-!
The recursion law of cells written like others: such a cell is its base, as the deck holds it, with
its own parameters laid over it and its own material and density keywords put in. The deck is not
built so. All parameters of a chain are laid over each other first, and the material and density
keywords among them are put in once; what comes out is the same for everything but the material and
the density, and for these exactly if the keywords laid over each other set last what the steps of
the recursion set last.
-/

namespace TransportDeck

open Number

variable {chain : List Cell} {root base c : Cell}

namespace Cell

def expandedOver (base own : Cell) : Cell :=
  ((base.overBase own).withoutOverrides.applyOverrides own.overrides).1

theorem expandedOver_eq (base own : Cell) :
    base.expandedOver own = (base.overBase own).withoutOverrides.withLastSet own.overrides :=
  applyOverrides_eq _ isOverride_of_mem_overrides

end Cell

/-- The material and density keywords that have been put in below a cell with this chain. Those of a
full definition stay keywords. -/
def stepOverrides (root : Cell) : List Cell → KeywordGroups
  | [] => []
  | chain => chainOverrides root chain

/-- The keywords of a base and of a cell over it, laid over each other, set last what the two sets
one after the other set last. What they leave alone is that of the full definition. -/
structure SetsInOrder (root : Cell) (chain : List Cell) (c : Cell) : Prop where
  material :
    (lastSet? setMaterial? (laidOver (chainOverrides root chain) c.overrides)).getD root.material =
      (lastSet? setMaterial? (stepOverrides root chain ++ c.overrides)).getD root.material
  density :
    (lastSet? setDensity? (laidOver (chainOverrides root chain) c.overrides)).getD root.density =
      (lastSet? setDensity? (stepOverrides root chain ++ c.overrides)).getD root.density

theorem stepOverrides_eq (hne : chain ≠ []) :
    stepOverrides root chain = chainOverrides root chain := by
  cases chain with
  | nil => exact absurd rfl hne
  | cons => rfl

/-- A cell without such keywords sets nothing out of order, if its base is written like another. -/
theorem SetsInOrder.of_no_overrides (hne : chain ≠ []) (hown : c.overrides = []) :
    SetsInOrder root chain c := by
  refine ⟨?_, ?_⟩ <;> rw [hown, laidOver_nil, List.append_nil, stepOverrides_eq hne]

/-- A cell that asks for a material alone, over a base that was made void, sets its density out of
order: the keyword that made the base void gives way to its own. -/
theorem not_setsInOrder_of_void {zero value : String} {m : Nat} (hne : chain ≠ [])
    (hvoid : chainOverrides root chain = [("mat", [zero])]) (hzero : readCardinal? zero = some 0)
    (hown : c.overrides = [("mat", [value])]) (hvalue : readCardinal? value = some m) (hm : m ≠ 0)
    (hroot : root.density ≠ none) : ¬ SetsInOrder root chain c := by
  intro horder
  have hdensity := horder.density
  have hlaid : laidOver [("mat", [zero])] [("mat", [value])] = [("mat", [value])] := rfl
  have hkeeps : setDensity? ("mat", [value]) = none := by simp [setDensity?, hvalue, hm]
  have hclears : setDensity? ("mat", [zero]) = some none := by simp [setDensity?, hzero]
  rw [stepOverrides_eq hne, hvoid, hown, hlaid] at hdensity
  simp [lastSet?, hkeeps, hclears] at hdensity
  exact hroot hdensity

/-- The base of a cell as the deck holds it, but for keywords that are still in place. -/
theorem withoutOverrides_expand_base {cells : List Cell} (hd : (cells.map (·.number)).Nodup)
    (hbase : IsLikeChain cells root chain base) :
    (base.expand cells).1.withoutOverrides =
      (chain.foldl Cell.overBase root).withoutOverrides.withLastSet (stepOverrides root chain) := by
  cases chain with
  | nil =>
    rw [Cell.expand_full (hbase.like_eq_none_iff.mpr rfl), hbase.eq_root rfl]
    rfl
  | cons lowest rest =>
    rw [Cell.expand_chain hd hbase (List.cons_ne_nil lowest rest), Cell.settle_eq,
      overrides_foldl_overBase]
    exact congrArg (fun x : Cell => x.withLastSet (chainOverrides root (lowest :: rest)))
      (Cell.withoutOverrides_withoutOverrides _)

/-- Every cell written over another is held as the recursion law has it, but perhaps for its material
and density; the law holds for these exactly if the keywords of its chain set them in order. -/
theorem recursion_law_iff {blocks : Blocks}
    (hbase : IsLikeChain blocks.writtenCells root chain base) (hc : c ∈ blocks.writtenCells)
    (hlike : c.like = some base.number) :
    ∃ stored storedBase,
      (Reading.ofBlocks blocks).deck.findCell? c.number = some stored ∧
      (Reading.ofBlocks blocks).deck.findCell? base.number = some storedBase ∧
      stored = { storedBase.expandedOver c with
        material := stored.material, density := stored.density } ∧
      (stored = storedBase.expandedOver c ↔ SetsInOrder root chain c) := by
  have hd := blocks.nodup_number_writtenCells
  have hchain : IsLikeChain blocks.writtenCells root (chain ++ [c]) c := .like hbase hc hlike
  have hne : chain ++ [c] ≠ [] := by simp
  refine ⟨_, _, findCell?_ofBlocks hc, findCell?_ofBlocks hbase.mem, ?_⟩
  obtain ⟨laid, hlaid⟩ : ∃ laid,
      laid = ((chain.foldl Cell.overBase root).overBase c).withoutOverrides := ⟨_, rfl⟩
  have hroot : laid.material = root.material ∧ laid.density = root.density := by
    have hkeeps := foldl_overBase_keeps root chain
    rw [hlaid]
    exact ⟨hkeeps.1, hkeeps.2.1⟩
  have hstored : (c.expand blocks.writtenCells).1 =
      laid.withLastSet (laidOver (chainOverrides root chain) c.overrides) := by
    rw [Cell.expand_chain hd hchain hne, List.foldl_append, List.foldl_cons, List.foldl_nil,
      Cell.settle_eq, Cell.overrides_overBase, overrides_foldl_overBase, hlaid]
  have hlaw : (base.expand blocks.writtenCells).1.expandedOver c =
      laid.withLastSet (stepOverrides root chain ++ c.overrides) :=
    calc (base.expand blocks.writtenCells).1.expandedOver c
      _ = ((base.expand blocks.writtenCells).1.withoutOverrides.overBase
            c).withoutOverrides.withLastSet c.overrides := by
          rw [Cell.expandedOver_eq, Cell.withoutOverrides_overBase]
      _ = (((chain.foldl Cell.overBase root).withoutOverrides.overBase
            c).withoutOverrides.withLastSet (stepOverrides root chain)).withLastSet
              c.overrides := by
          rw [withoutOverrides_expand_base hd hbase]
          rfl
      _ = laid.withLastSet (stepOverrides root chain ++ c.overrides) := by
          rw [Cell.withoutOverrides_overBase, ← hlaid, Cell.withLastSet_append]
  -- both are the same cell after different keywords, so only what these set can differ
  rw [hstored, hlaw]
  refine ⟨rfl, ?_⟩
  constructor
  · intro hsame
    have hmaterial := congrArg Cell.material hsame
    have hdensity := congrArg Cell.density hsame
    simp only [Cell.withLastSet, hroot.1, hroot.2] at hmaterial hdensity
    exact ⟨hmaterial, hdensity⟩
  · intro horder
    simp only [Cell.withLastSet, hroot.1, hroot.2, horder.material, horder.density]

def voidBetween : Blocks where
  title := ""
  titleLine := 1
  messages := []
  cells := ["1 1 -2.7 -1", "2 like 1 but mat=0", "3 like 2 but mat=1"].map fun text =>
    { text, span := .zero, comments := [] }
  surfaces := []
  data := []

theorem writtenCells_voidBetween : ∃ full void filled,
    voidBetween.writtenCells = [full, void, filled] ∧ full.number = 1 ∧ full.like = none ∧
      void.number = 2 ∧ void.like = some 1 ∧ filled.number = 3 ∧ filled.like = some 2 := by
  have hlength : voidBetween.writtenCells.length = 3 := by decide +kernel
  obtain ⟨full, void, filled, hcells⟩ := List.length_eq_three.mp hlength
  have hnames : voidBetween.writtenCells.map (fun c => (c.number, c.like)) =
      [(1, none), (2, some 1), (3, some 2)] := by decide +kernel
  rw [hcells] at hnames
  simp only [List.map_cons, List.map_nil, List.cons.injEq, Prod.mk.injEq] at hnames
  obtain ⟨⟨h1, h2⟩, ⟨h3, h4⟩, ⟨h5, h6⟩, _⟩ := hnames
  exact ⟨full, void, filled, hcells, h1, h2, h3, h4, h5, h6⟩

theorem isLikeChain_voidBetween : ∃ full void filled,
    voidBetween.writtenCells = [full, void, filled] ∧ void.number = 2 ∧ filled.number = 3 ∧
      IsLikeChain voidBetween.writtenCells full [void] void ∧ filled.like = some void.number := by
  obtain ⟨full, void, filled, hcells, hfull, hfullLike, hvoid, hvoidLike, hfilled, hlike⟩ :=
    writtenCells_voidBetween
  have hbase : IsLikeChain voidBetween.writtenCells full [] full :=
    .full (by rw [hcells]; simp) hfullLike
  have hchain : IsLikeChain voidBetween.writtenCells full [void] void :=
    .like hbase (by rw [hcells]; simp) (by rw [hvoidLike, hfull])
  exact ⟨full, void, filled, hcells, hvoid, hfilled, hchain, by rw [hlike, hvoid]⟩

theorem recursion_law_at_voidBetween : ∃ root base c chain,
    IsLikeChain voidBetween.writtenCells root chain base ∧ c ∈ voidBetween.writtenCells ∧
      c.like = some base.number ∧
      ∃ stored storedBase,
        (Reading.ofBlocks voidBetween).deck.findCell? c.number = some stored ∧
        (Reading.ofBlocks voidBetween).deck.findCell? base.number = some storedBase ∧
        stored = { storedBase.expandedOver c with
          material := stored.material, density := stored.density } ∧
        (stored = storedBase.expandedOver c ↔ SetsInOrder root chain c) := by
  obtain ⟨full, void, filled, hcells, _, _, hchain, hlike⟩ := isLikeChain_voidBetween
  have hfilled : filled ∈ voidBetween.writtenCells := by rw [hcells]; simp
  exact ⟨full, void, filled, [void], hchain, hfilled, hlike,
    recursion_law_iff hchain hfilled hlike⟩

/-- The density of the full definition comes back through the void. -/
theorem density_through_void : ∃ root base c chain stored storedBase,
    IsLikeChain voidBetween.writtenCells root chain base ∧ c ∈ voidBetween.writtenCells ∧
      c.like = some base.number ∧
      (Reading.ofBlocks voidBetween).deck.findCell? c.number = some stored ∧
      (Reading.ofBlocks voidBetween).deck.findCell? base.number = some storedBase ∧
      storedBase.material = 0 ∧ storedBase.density = none ∧ stored.density.isSome ∧
      (storedBase.expandedOver c).density = none ∧ stored ≠ storedBase.expandedOver c := by
  obtain ⟨full, void, filled, hcells, hvoid, hfilled, hchain, hlike⟩ := isLikeChain_voidBetween
  have hmem : filled ∈ voidBetween.writtenCells := by rw [hcells]; simp
  have hstored := findCell?_ofBlocks hmem
  have hstoredBase := findCell?_ofBlocks hchain.mem
  generalize filled.expand voidBetween.writtenCells = expanded at hstored
  generalize void.expand voidBetween.writtenCells = expandedBase at hstoredBase
  have hdensity : ((Reading.ofBlocks voidBetween).deck.findCell? 3).map (·.density.isSome) =
      some true := by decide +kernel
  have hbase : ((Reading.ofBlocks voidBetween).deck.findCell? 2).map
      (fun x => (x.material, x.density.isSome)) = some (0, false) := by decide +kernel
  have hlaw : (((Reading.ofBlocks voidBetween).deck.findCell? 2).bind fun x =>
      voidBetween.writtenCells.getLast?.map fun c => (x.expandedOver c).density.isSome) =
        some false := by decide +kernel
  rw [← hfilled, hstored] at hdensity
  rw [← hvoid, hstoredBase] at hbase hlaw
  rw [hcells] at hlaw
  simp only [Option.map_some, Option.some.injEq, Prod.mk.injEq, Option.isSome_eq_false_iff,
    Option.isNone_iff_eq_none, Option.bind_some, List.getLast?_cons_cons, List.getLast?_singleton]
    at hdensity hbase hlaw
  refine ⟨full, void, filled, [void], expanded.1, expandedBase.1, hchain, hmem, hlike, hstored,
    hstoredBase, hbase.1, hbase.2, hdensity, hlaw, fun hsame => ?_⟩
  rw [hsame, hlaw] at hdensity
  exact Bool.noConfusion hdensity

end TransportDeck
