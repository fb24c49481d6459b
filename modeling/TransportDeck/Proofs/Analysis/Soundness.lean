import TransportDeck.Proofs.Analysis.Errors
import TransportDeck.Proofs.CrossRefs.MissingTargets
import TransportDeck.Proofs.Geometry.Lattices
import TransportDeck.Proofs.Hierarchy.Cycles
import TransportDeck.Proofs.Like.Expand

namespace TransportDeck

structure Deck.Sound (d : Deck) : Prop where
  surface_of_region : ∀ c ∈ d.cells, ∀ term ∈ c.region.surfaces,
    ∃ s ∈ d.surfaces, s.number = term.id
  cell_of_complement : ∀ c ∈ d.cells, ∀ n ∈ c.region.complements,
    ∃ other ∈ d.cells, other.number = n
  cell_of_like : ∀ c ∈ d.cells, ∀ n, c.like = some n → ∃ base ∈ d.cells, base.number = n
  material_of_cell : ∀ c ∈ d.cells, c.material ≠ 0 → ∃ m ∈ d.materials, m.number = c.material
  transform_of_cell : ∀ c ∈ d.cells, ∀ n, c.params.transform = some (.reference n) →
    ∃ t ∈ d.transforms, t.number = n
  transform_of_fill : ∀ c ∈ d.cells, ∀ f, c.params.fill = some f →
    ∀ n, .reference n ∈ f.transforms → ∃ t ∈ d.transforms, t.number = n
  transform_of_surface : ∀ s ∈ d.surfaces, ∀ n, s.transform = some n → 0 < n →
    ∃ t ∈ d.transforms, (t.number : Int) = n
  partner_of_surface : ∀ s ∈ d.surfaces, ∀ n, s.transform = some n → n < 0 →
    ∃ partner ∈ d.surfaces, (partner.number : Int) = -n
  material_of_thermal : ∀ t ∈ d.thermals, ∃ m ∈ d.materials, m.number = t.material
  cell_of_tally : ∀ t ∈ d.tallies, ∀ bin ∈ t.bins, bin.entity = .cell →
    ∃ c ∈ d.cells, c.number = bin.id
  surface_of_tally : ∀ t ∈ d.tallies, ∀ bin ∈ t.bins, bin.entity = .surface →
    ∃ s ∈ d.surfaces, s.number = bin.id
  universe_of_fill : ∀ c ∈ d.cells, ∀ f, c.params.fill = some f → ∀ u ∈ f.targets,
    u = 0 ∨ ∃ other ∈ d.cells, other.universeId = u
  lattice_fits : ∀ c ∈ d.cells, d.LatticeFits c
  fill_complete : ∀ c ∈ d.cells, ∀ a, c.params.fill = some (.array a) → a.Complete
  acyclic : ∀ u, ¬ Relation.TransGen d.Fills u u

namespace Deck

variable {d : Deck}

theorem names_thermal {t : Thermal} (ht : t ∈ d.thermals) :
    d.Names (.thermalMaterial t.material) := by
  obtain ⟨card, hcard, hthermal⟩ := List.mem_filterMap.mp ht
  unfold DataCard.thermal? at hthermal
  split at hthermal
  · next hpayload =>
    cases hthermal
    exact .card hcard (.thermal hpayload)
  · cases hthermal

theorem exists_card_of_tally {t : Tally} (ht : t ∈ d.tallies) :
    ∃ card ∈ d.data, card.payload = .tally t := by
  obtain ⟨card, hcard, htally⟩ := List.mem_filterMap.mp ht
  unfold DataCard.tally? at htally
  split at htally
  · next hpayload =>
    cases htally
    exact ⟨card, hcard, hpayload⟩
  · cases htally

theorem sound_of_closed (hclosed : d.Closed)
    (hlike : ∀ c ∈ d.cells, ∀ n, c.like = some n → ∃ base ∈ d.cells, base.number = n)
    (hlattices : ∀ c ∈ d.cells,
      d.LatticeFits c ∧ ∀ a, c.params.fill = some (.array a) → a.Complete)
    (hacyclic : ∀ u, ¬ Relation.TransGen d.Fills u u) : d.Sound where
  surface_of_region c hc term hterm := hclosed _ (.cell hc (.surface hterm))
  cell_of_complement c hc n hn := hclosed _ (.cell hc (.complement hn))
  cell_of_like := hlike
  material_of_cell c hc hmaterial := hclosed _ (.cell hc (.material hmaterial))
  transform_of_cell c hc n hn := hclosed _ (.cell hc (.transform hn))
  transform_of_fill c hc f hf n hn := hclosed _ (.cell hc (.fillTransform hf hn))
  transform_of_surface s hs n hn hpos := by
    obtain ⟨t, ht, hnumber⟩ := hclosed _ (.surface hs (.transform hn hpos))
    exact ⟨t, ht, by change t.number = n.natAbs at hnumber; omega⟩
  partner_of_surface s hs n hn hneg := by
    obtain ⟨p, hp, hnumber⟩ := hclosed _ (.surface hs (.partner hn hneg))
    exact ⟨p, hp, by change p.number = n.natAbs at hnumber; omega⟩
  material_of_thermal t ht := hclosed _ (names_thermal ht)
  cell_of_tally t ht bin hbin hentity := by
    obtain ⟨card, hcard, hpayload⟩ := exists_card_of_tally ht
    obtain ⟨entity, n⟩ := bin
    cases hentity
    exact hclosed _ (.card hcard (.tallyCell hpayload hbin))
  surface_of_tally t ht bin hbin hentity := by
    obtain ⟨card, hcard, hpayload⟩ := exists_card_of_tally ht
    obtain ⟨entity, n⟩ := bin
    cases hentity
    exact hclosed _ (.card hcard (.tallySurface hpayload hbin))
  universe_of_fill c hc f hf u hu := hclosed _ (.cell hc (.filled hf hu))
  lattice_fits c hc := (hlattices c hc).1
  fill_complete c hc := (hlattices c hc).2
  acyclic := hacyclic

/-- Where every reference has its target, the lattices are in order and universes do not nest in
themselves, the deck is sound. -/
theorem sound_of_holds (hholds : ∀ r ∈ d.references, d.Holds r.target)
    (hlike : ∀ c ∈ d.cells, ∀ n, c.like = some n → ∃ base ∈ d.cells, base.number = n)
    (hlattices : ∀ c ∈ d.cells,
      d.LatticeFits c ∧ ∀ a, c.params.fill = some (.array a) → a.Complete)
    (hacyclic : ∀ u, ¬ Relation.TransGen d.Fills u u) : d.Sound :=
  sound_of_closed (fun r hr => hholds r (mem_references_iff.mpr hr)) hlike hlattices hacyclic

end Deck

namespace Analysis

/-- A text that is analysed without errors holds a sound deck. -/
theorem sound_of_no_errors (settings : Settings) (text : String)
    (hclean : (ofText settings text).hasErrors = false) :
    ∃ model, (ofText settings text).model = some model ∧ model.deck.Sound := by
  obtain ⟨blocks, hblocks, hphases⟩ := hasErrors_ofText.mp hclean
  refine ⟨.ofDeck (Reading.ofBlocks blocks).deck, by rw [ofText, hblocks]; rfl, ?_⟩
  simp only [phases, List.mem_append] at hphases
  refine Deck.sound_of_holds ?_ ?_ ?_ ?_
  · exact CrossRefs.holds_of_no_errors fun r hr => hphases r (.inl (.inl (.inl (.inr hr))))
  · intro c hc n hlike
    exact exists_base_ofBlocks (fun r hr => hphases r (.inl (.inl (.inl (.inl hr))))) hc hlike
  · intro c hc
    exact Geometry.lattices_of_no_errors (fun r hr => hphases r (.inl (.inl (.inr hr)))) hc
  · exact Hierarchy.acyclic_of_no_errors fun r hr => hphases r (.inl (.inr hr))

def smallLattice : String :=
  "small lattice\n1 0 -1 fill=1 trcl=5\n2 0 1 #1\n3 0 -2 u=1 lat=1 fill=0:1 0:0 0:0 2 3\n" ++
  "4 0 -1 u=2\n5 like 4 but u=3\n\n1 so 9\n2 rpp -1 1 -1 1 -1 1\n\n" ++
  "tr5 0 0 1\nf4:n 4 5\nnps 1\n"

theorem smallLattice_sound : (ofText {} smallLattice).hasErrors = false ∧
    ∃ model, (ofText {} smallLattice).model = some model ∧ model.deck.Sound := by
  have hclean : (ofText {} smallLattice).hasErrors = false := by decide +kernel
  exact ⟨hclean, sound_of_no_errors {} smallLattice hclean⟩

end Analysis

end TransportDeck
