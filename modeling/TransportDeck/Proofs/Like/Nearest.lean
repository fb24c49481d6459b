import TransportDeck.Proofs.Like.Expand
import TransportDeck.Table.Lookup

namespace TransportDeck

variable {cells chain : List Cell} {root c : Cell}

theorem find?_importance_overlay (lower upper : CellParams) (particle : Particle) :
    (lower.overlay upper).importance.find? particle =
      (upper.importance.find? particle).or (lower.importance.find? particle) :=
  Table.find?_foldl_insert upper.importance.ascending lower.importance particle

/-- Where the upper of two cells wins if it sets a thing, the nearest of a chain that sets it wins. -/
theorem foldl_overBase_nearest {α : Type} (get? : Cell → Option α)
    (hover : ∀ base own, get? (base.overBase own) = (get? own).or (get? base))
    (root : Cell) (chain : List Cell) :
    get? (chain.foldl Cell.overBase root) = (root :: chain).reverse.findSome? get? := by
  induction chain generalizing root with
  | nil => simp
  | cons c rest ih =>
    rw [List.foldl_cons, ih, List.reverse_cons, List.reverse_cons, List.reverse_cons]
    simp only [List.findSome?_append, List.findSome?_singleton, hover, Option.or_assoc]

/-- Each parameter is that of the first of some cells that sets it. -/
structure CellParams.TakenFrom (p : CellParams) (nearestFirst : List Cell) : Prop where
  signedUniverse : p.signedUniverse = nearestFirst.findSome? fun c => c.params.signedUniverse
  fill : p.fill = nearestFirst.findSome? fun c => c.params.fill
  lattice : p.lattice = nearestFirst.findSome? fun c => c.params.lattice
  transform : p.transform = nearestFirst.findSome? fun c => c.params.transform
  volume : p.volume = nearestFirst.findSome? fun c => c.params.volume
  temperature : p.temperature = nearestFirst.findSome? fun c => c.params.temperature
  importance : ∀ particle, p.importance.find? particle =
    nearestFirst.findSome? fun c => c.params.importance.find? particle

theorem takenFrom_foldl_overBase (root : Cell) (chain : List Cell) :
    (chain.foldl Cell.overBase root).params.TakenFrom (root :: chain).reverse := by
  have horElse {α : Type} (a b : Option α) : (a <|> b) = a.or b := Option.orElse_eq_or
  exact
    { signedUniverse := foldl_overBase_nearest (fun c => c.params.signedUniverse)
        (fun _ _ => horElse _ _) root chain
      fill := foldl_overBase_nearest (fun c => c.params.fill) (fun _ _ => horElse _ _) root chain
      lattice := foldl_overBase_nearest (fun c => c.params.lattice)
        (fun _ _ => horElse _ _) root chain
      transform := foldl_overBase_nearest (fun c => c.params.transform)
        (fun _ _ => horElse _ _) root chain
      volume := foldl_overBase_nearest (fun c => c.params.volume) (fun _ _ => horElse _ _) root chain
      temperature := foldl_overBase_nearest (fun c => c.params.temperature)
        (fun _ _ => horElse _ _) root chain
      importance := fun particle =>
        foldl_overBase_nearest (fun c => c.params.importance.find? particle)
          (fun base own => find?_importance_overlay base.params own.params particle) root chain }

theorem takenFrom_settle {nearestFirst : List Cell} (h : c.params.TakenFrom nearestFirst) :
    c.settle.1.params.TakenFrom nearestFirst := by
  rw [Cell.settle_eq]
  exact ⟨h.signedUniverse, h.fill, h.lattice, h.transform, h.volume, h.temperature, h.importance⟩

end TransportDeck
