import Mathlib.Data.List.Induction
import TransportDeck.Proofs.Analysis.Errors
import TransportDeck.Proofs.Like.Expand
import TransportDeck.Proofs.Like.Links
import TransportDeck.Proofs.Reading.CellCards

/-!
Densities in a deck that is analysed without errors. Where there is a material there is a density. A
void has none either, unless it is written like another cell and asks for a density after its
material has been settled.
-/

namespace TransportDeck

open Number

variable {cells chain : List Cell} {root c : Cell} {keywords : KeywordGroups}

/-- Over the given material, keywords leave a void and a density, which is set when the material of the
void has been set for the last time. -/
def LeavesDenseVoid (material : Nat) (keywords : KeywordGroups) : Prop :=
  (lastSet? setMaterial? keywords).getD material = 0 ∧
    ∃ earlier value later, keywords = earlier ++ ("rho", [value]) :: later ∧
      (readFloat? value).isSome ∧ lastSet? setMaterial? later = none

/-- A void that had no density gets one from a keyword after which no material is set. -/
theorem exists_later_density (hvoid : (lastSet? setMaterial? keywords).getD c.material = 0)
    (hcell : c.density.isSome → c.material ≠ 0)
    (hdensity : ((lastSet? setDensity? keywords).getD c.density).isSome) :
    LeavesDenseVoid c.material keywords := by
  refine ⟨hvoid, ?_⟩
  -- from the last keyword backwards, until one is met that sets the density
  induction keywords using List.reverseRecOn with
  | nil => exact absurd hvoid (hcell hdensity)
  | append_singleton earlier keyword ih =>
    rw [lastSet?_snoc] at hvoid hdensity
    cases hset : setDensity? keyword with
    | some density =>
      cases density with
      | none => simp [hset] at hdensity
      | some density =>
        obtain ⟨value, rfl, hvalue⟩ := setDensity?_eq_some_iff.mp hset
        exact ⟨earlier, value, [], rfl, by rw [hvalue]; rfl, rfl⟩
    | none =>
      rw [hset, Option.none_or] at hdensity
      -- a keyword that sets a material would leave a void only if it took the density away
      have hkeeps : setMaterial? keyword = none := by
        cases hmaterial : setMaterial? keyword with
        | none => rfl
        | some m =>
          have hm : m = 0 := by simpa [hmaterial] using hvoid
          rw [hm, ← setDensity?_eq_none_iff, hset] at hmaterial
          cases hmaterial
      rw [hkeeps, Option.none_or] at hvoid
      obtain ⟨before, value, later, rfl, hvalue, hlater⟩ := ih hvoid hdensity
      refine ⟨before, value, later ++ [keyword], by simp, hvalue, ?_⟩
      rw [lastSet?_snoc, hkeeps, hlater, Option.none_or]

theorem density_of_leavesDenseVoid (h : LeavesDenseVoid c.material keywords) :
    ((lastSet? setDensity? keywords).getD c.density).isSome := by
  obtain ⟨_, earlier, value, later, rfl, hvalue, hlater⟩ := h
  obtain ⟨density, hdensity⟩ := Option.isSome_iff_exists.mp hvalue
  have hset : setDensity? ("rho", [value]) = some (some density) :=
    setDensity?_eq_some_iff.mpr ⟨value, rfl, hdensity⟩
  have hlast : ∃ last, lastSet? setDensity? (("rho", [value]) :: later) = some (some last) := by
    have hsome : lastSet? setDensity? (("rho", [value]) :: later) ≠ none := by
      rw [Ne, lastSet?_eq_none_iff]
      intro hnone
      rw [hnone _ List.mem_cons_self] at hset
      cases hset
    obtain ⟨last, hlast⟩ := Option.ne_none_iff_exists'.mp hsome
    cases last with
    | some last => exact ⟨last, hlast⟩
    | none =>
      obtain ⟨keyword, hmem, hkeyword⟩ := List.mem_filterMap.mp (List.mem_of_getLast? hlast)
      rcases List.mem_cons.mp hmem with rfl | hmem
      · rw [hset] at hkeyword
        cases hkeyword
      · have hmaterial := lastSet?_eq_none_iff.mp hlater keyword hmem
        rw [setDensity?_eq_none_iff.mp hkeyword] at hmaterial
        cases hmaterial
  obtain ⟨last, hlast⟩ := hlast
  rw [lastSet?_append, hlast]
  rfl

theorem density_withLastSet_iff (hcell : c.density.isSome → c.material ≠ 0)
    (hfilled : (c.withLastSet keywords).material ≠ 0 → (c.withLastSet keywords).density.isSome) :
    ((c.withLastSet keywords).density.isSome ↔ (c.withLastSet keywords).material ≠ 0) ↔
      ¬ LeavesDenseVoid c.material keywords := by
  constructor
  · intro h hdense
    exact h.mp (density_of_leavesDenseVoid hdense) hdense.1
  · intro hnot
    refine ⟨fun hdensity hvoid => hnot ?_, hfilled⟩
    exact exists_later_density hvoid hcell hdensity

namespace Cell

theorem overrideDensity_mem_settle (hfilled : c.settle.1.material ≠ 0)
    (hdensity : c.settle.1.density = none) :
    .overrideDensity c.settle.1.material ∈ c.settle.2 := by
  obtain ⟨applied, happlied⟩ : ∃ applied, applied = c.withoutOverrides.applyOverrides c.overrides :=
    ⟨_, rfl⟩
  have hsettle : c.settle =
      if applied.1.material != 0 && applied.1.density.isNone then
        (applied.1, applied.2 ++ [.overrideDensity applied.1.material])
      else (applied.1, applied.2) := by
    rw [happlied]
    rfl
  by_cases h : (applied.1.material != 0 && applied.1.density.isNone) = true
  · rw [hsettle, if_pos h]
    exact List.mem_append_right _ List.mem_cons_self
  · rw [hsettle, if_neg h] at hfilled hdensity
    have hmet : (applied.1.material != 0 && applied.1.density.isNone) = true := by
      rw [Bool.and_eq_true, bne_iff_ne, Option.isNone_iff_eq_none]
      exact ⟨hfilled, hdensity⟩
    exact absurd hmet h

theorem density_of_clean (hd : (cells.map (·.number)).Nodup)
    (hchain : IsLikeChain cells root chain c) (hne : chain ≠ [])
    (hclean : ∀ r ∈ (c.expand cells).2, r.isError = false) :
    (c.expand cells).1.material ≠ 0 → (c.expand cells).1.density.isSome := by
  obtain ⟨base, hlike⟩ := Option.ne_none_iff_exists'.mp (mt hchain.like_eq_none_iff.mp hne)
  rw [expand_chain hd hchain hne]
  intro hfilled
  by_contra hnone
  have hfault := overrideDensity_mem_settle hfilled (by simpa using hnone)
  have herror := hclean (CardIssue.report ⟨some s!"cell {c.number}", _⟩ c.span) (by
    rw [expand, hlike]
    simp only [(followLike_complete_iff hd hchain.mem).mpr hchain]
    exact List.mem_map_of_mem hfault)
  exact Bool.noConfusion herror

end Cell

/-- A cell about which nothing is wrong has a density just where it has a material, unless its chain
leaves a void with a density. -/
theorem density_of_chain {blocks : Blocks} (hchain : IsLikeChain blocks.writtenCells root chain c)
    (hclean : ∀ r ∈ (c.expand blocks.writtenCells).2, r.isError = false) :
    ((c.expand blocks.writtenCells).1.material ≠ 0 →
      (c.expand blocks.writtenCells).1.density.isSome) ∧
    (((c.expand blocks.writtenCells).1.density.isSome ↔
      (c.expand blocks.writtenCells).1.material ≠ 0) ↔
        ¬ (chain ≠ [] ∧ LeavesDenseVoid root.material (chainOverrides root chain))) := by
  have hd := blocks.nodup_number_writtenCells
  have hroot := Blocks.density_of_full (hchain.subset List.mem_cons_self) hchain.root_full
  by_cases hnil : chain = []
  · obtain rfl := hchain.eq_root hnil
    rw [Cell.expand_full hchain.root_full]
    exact ⟨hroot.mpr, by simp [hnil, hroot]⟩
  · have hfilled := Cell.density_of_clean hd hchain hnil hclean
    refine ⟨hfilled, ?_⟩
    obtain ⟨hmaterial, hdensity, _⟩ := foldl_overBase_keeps root chain
    rw [Cell.expand_chain hd hchain hnil, Cell.settle_eq, overrides_foldl_overBase] at hfilled ⊢
    generalize hlaid : (chain.foldl Cell.overBase root).withoutOverrides = laid at hfilled ⊢
    have hlaidMaterial : laid.material = root.material := by rw [← hlaid]; exact hmaterial
    have hlaidDensity : laid.density = root.density := by rw [← hlaid]; exact hdensity
    have hcell : laid.density.isSome → laid.material ≠ 0 := by
      rw [hlaidDensity, hlaidMaterial]
      exact hroot.mp
    rw [density_withLastSet_iff hcell hfilled, hlaidMaterial]
    simp [hnil]

namespace Analysis

/-- In a deck that is analysed without errors every material has a density. A cell without a material
has none exactly if its chain leaves no void with a density; cells in full never do. -/
theorem density_iff_material_iff (settings : Settings) (text : String)
    (hclean : (ofText settings text).hasErrors = false) :
    ∃ blocks, Blocks.ofText text = .ok blocks ∧
      (ofText settings text).model = some (.ofDeck (Reading.ofBlocks blocks).deck) ∧
      ∀ stored ∈ (Reading.ofBlocks blocks).deck.cells, ∃ root chain c,
        IsLikeChain blocks.writtenCells root chain c ∧
        stored = (c.expand blocks.writtenCells).1 ∧
        (stored.material ≠ 0 → stored.density.isSome) ∧
        ((stored.density.isSome ↔ stored.material ≠ 0) ↔
          ¬ (chain ≠ [] ∧ LeavesDenseVoid root.material (chainOverrides root chain))) := by
  obtain ⟨blocks, hblocks, hphases⟩ := hasErrors_ofText.mp hclean
  refine ⟨blocks, hblocks, by rw [ofText, hblocks]; rfl, ?_⟩
  intro stored hstored
  rw [Reading.cells_ofBlocks] at hstored
  obtain ⟨c, hc, rfl⟩ := List.mem_map.mp hstored
  have hreports : ∀ r ∈ (c.expand blocks.writtenCells).2, r.isError = false := by
    intro r hr
    refine hphases r ?_
    simp only [phases, List.mem_append]
    exact .inl (.inl (.inl (.inl (reports_expand_subset hc hr))))
  obtain ⟨root, chain, hchain⟩ :=
    Cell.exists_chain_of_clean blocks.nodup_number_writtenCells hc hreports
  obtain ⟨hfilled, hiff⟩ := density_of_chain hchain hreports
  exact ⟨root, chain, c, hchain, rfl, hfilled, hiff⟩

def denseVoid : String :=
  "void\n1 0 -1\n2 like 1 but rho=-1\n\n1 so 1\n\nnps 1\n"

theorem hasErrors_denseVoid : (ofText {} denseVoid).hasErrors = false := by decide +kernel

theorem density_at_denseVoid : (ofText {} denseVoid).hasErrors = false ∧
    ∃ blocks, Blocks.ofText denseVoid = .ok blocks ∧
      (ofText {} denseVoid).model = some (.ofDeck (Reading.ofBlocks blocks).deck) ∧
      ∀ stored ∈ (Reading.ofBlocks blocks).deck.cells, ∃ root chain c,
        IsLikeChain blocks.writtenCells root chain c ∧
        stored = (c.expand blocks.writtenCells).1 ∧
        (stored.material ≠ 0 → stored.density.isSome) ∧
        ((stored.density.isSome ↔ stored.material ≠ 0) ↔
          ¬ (chain ≠ [] ∧ LeavesDenseVoid root.material (chainOverrides root chain))) := by
  exact ⟨hasErrors_denseVoid, density_iff_material_iff {} denseVoid hasErrors_denseVoid⟩

/-- The void that asks for a density has it, and nothing is reported. -/
theorem density_of_void : (ofText {} denseVoid).hasErrors = false ∧
    ∃ model, (ofText {} denseVoid).model = some model ∧
      ∃ c ∈ model.deck.cells, c.number = 2 ∧ c.material = 0 ∧ c.density.isSome := by
  have hcells : (ofText {} denseVoid).model.map (fun model =>
      model.deck.cells.any fun c => c.number == 2 && c.material == 0 && c.density.isSome) =
        some true := by decide +kernel
  obtain ⟨model, hmodel, hany⟩ := Option.map_eq_some_iff.mp hcells
  obtain ⟨c, hc, hdense⟩ := List.any_eq_true.mp hany
  simp only [Bool.and_eq_true, beq_iff_eq] at hdense
  exact ⟨hasErrors_denseVoid, model, hmodel, c, hc, hdense.1.1, hdense.1.2, hdense.2⟩

end Analysis

end TransportDeck
