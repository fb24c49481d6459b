import TransportDeck.Proofs.Card.CellForms
import TransportDeck.Proofs.Reading.KeepFirst

namespace TransportDeck.Blocks

variable {blocks : Blocks}

/-- What holds of each cell as its card gives it holds of the written cells. -/
theorem forall_writtenCells {P : Cell → Prop} (hplace : ∀ c span, P c → P { c with span })
    (hread : ∀ card ∈ blocks.cells, ∀ c issues,
      Card.readCell card.text.toList = .ok (c, issues) → P c) :
    ∀ c ∈ blocks.writtenCells, P c := by
  intro c hc
  obtain ⟨span, own, issues, hmem, rfl⟩ := Cell.rules.exists_result_of_kept [] [] _ c hc
  obtain ⟨card, hcard, heq⟩ := List.mem_map.mp hmem
  exact hplace own span (hread card hcard own issues (Prod.mk.inj heq).2)

theorem density_of_full {c : Cell} (hc : c ∈ blocks.writtenCells) (hfull : c.like = none) :
    c.density.isSome ↔ c.material ≠ 0 := by
  have hcells : ∀ c ∈ blocks.writtenCells, c.like = none → (c.density.isSome ↔ c.material ≠ 0) := by
    refine forall_writtenCells (fun c span h => h) fun card _ c issues hread => ?_
    obtain ⟨_, _, _, _, hform⟩ := Card.form_of_readCell hread
    cases hform with
    | like => exact nofun
    | full _ hdensity => exact fun _ => hdensity
  exact hcells c hc hfull

end TransportDeck.Blocks
