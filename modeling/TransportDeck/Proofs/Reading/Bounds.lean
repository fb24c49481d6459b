import TransportDeck.FillGraph
import TransportDeck.Geometry
import TransportDeck.Proofs.Card.Params
import TransportDeck.Proofs.Like.Expand

namespace TransportDeck

open Number

structure Cell.Within (n : Nat) (c : Cell) : Prop where
  params : c.params.Within n
  surfaces_le : c.region.surfaces.length ≤ n

theorem Cell.Within.mono {m n : Nat} {c : Cell} (h : c.Within m) (hle : m ≤ n) : c.Within n :=
  ⟨h.params.mono hle, Nat.le_trans h.surfaces_le hle⟩

namespace Card

section Tokens

variable {ts us : List String}

theorem tokenBytes_sublist (h : ts.Sublist us) : Text.tokenBytes ts ≤ Text.tokenBytes us :=
  List.Sublist.sum_le_sum (h.map _) fun _ _ => Nat.zero_le _

theorem length_words_le (cs : List Char) : (Text.words cs).length ≤ cs.length := by
  have hne : ∀ w ∈ Text.words cs, w ≠ [] := fun w hw => by simpa using (List.mem_filter.mp hw).2
  calc (Text.words cs).length
      ≤ (Text.words cs).flatten.length := Text.length_le_length_flatten hne
    _ = (cs.filter fun c => !Text.isBlank c).length := by rw [Text.flatten_words]
    _ ≤ cs.length := List.length_filter_le _ _

theorem length_mapM {ε α β : Type} {f : α → Except ε β} {xs : List α} {ys : List β}
    (h : xs.mapM f = .ok ys) : ys.length = xs.length := by
  induction xs generalizing ys with
  | nil =>
    cases h
    rfl
  | cons x xs ih =>
    rw [List.mapM_cons] at h
    obtain ⟨y, _, h⟩ := bind_eq_ok.mp h
    obtain ⟨rest, hrest, h⟩ := bind_eq_ok.mp h
    cases h
    rw [List.length_cons, List.length_cons, ih hrest]

/-- Joined tokens give no more words than they have bytes, with a blank after each token. -/
theorem length_surfaces_le {region : Region} (h : readRegion (Text.joined " " ts).toList = .ok region) :
    region.surfaces.length ≤ Text.tokenBytes ts + ts.length := by
  obtain ⟨terms, hterms, h⟩ := bind_eq_ok.mp h
  cases h
  have hbytes : Text.bytes (Text.joined " " ts).toList ≤ Text.tokenBytes ts + ts.length := by
    by_cases hne : ts = []
    · subst hne
      exact Nat.zero_le _
    · have hjoined := Text.bytes_joined hne
      rw [Text.pieceBytes_tokens] at hjoined
      omega
  calc (terms.filterMap RegionTerm.surface?).length
      ≤ terms.length := List.length_filterMap_le _ _
    _ = (regionWords (Text.joined " " ts).toList).length := length_mapM hterms
    _ ≤ (Text.joined " " ts).toList.length := by
        refine Nat.le_trans (length_words_le _) ?_
        rw [List.length_map]
    _ ≤ Text.bytes (Text.joined " " ts).toList := Text.length_le_bytes _
    _ ≤ Text.tokenBytes ts + ts.length := hbytes

end Tokens

section Cells

variable {c : Cell} {rest : List String}

theorem within_params {ts : List String} (h : ts.Sublist rest) : (readParams ts).1.Within
    (maxExpandedLength + 2 * Text.tokenBytes rest) := by
  have hle := Text.length_splitTokens_le ['(', ')'] ts
  have hpart := tokenBytes_sublist h
  exact (within_readParams ts).mono (by omega)

theorem within_readCell {text : List Char} {issues : List CardIssue}
    (h : readCell text = .ok (c, issues)) : c.Within (maxExpandedLength + 2 * Text.bytes text) := by
  obtain ⟨first, second, rest, htokens, hform⟩ := form_of_readCell h
  have hbytes := Text.tokenBytes_tokens_le ['='] text
  have hne : ∀ t ∈ Text.tokens ['='] text, t ≠ "" := fun t => Text.ne_empty_of_mem_tokens
  rw [htokens] at hbytes hne
  have hpart : rest.Sublist (first :: second :: rest) :=
    (List.sublist_cons_self _ _).trans (List.sublist_cons_self _ _)
  have hle := tokenBytes_sublist hpart
  have hrest : rest.length ≤ Text.tokenBytes rest :=
    Text.length_le_tokenBytes fun t ht => hne t (hpart.subset ht)
  refine Cell.Within.mono (m := maxExpandedLength + 2 * Text.tokenBytes rest) ?_ (by omega)
  cases hform with
  | like hparams => exact ⟨within_params hparams, Nat.zero_le _⟩
  | full hwords _ hregion =>
    refine ⟨within_params ((List.dropWhile_sublist _).trans hwords), ?_⟩
    have htaken := (List.takeWhile_sublist fun t => !isKeyword t).trans hwords
    have hsurfaces := length_surfaces_le hregion
    have hregionBytes := tokenBytes_sublist htaken
    have hlength := htaken.length_le
    dsimp only
    omega

end Cells

theorem fits_of_readSurface {text : List Char} {s : Surface} {issues : List CardIssue}
    (h : readSurface text = .ok (s, issues)) : ∀ n ∈ s.transform, fitsInt32 n = true := by
  unfold readSurface at h
  split at h
  · cases h
  · next first rest _ =>
    split at h
    · cases h
    · obtain ⟨faults, hread, _⟩ := onCard_eq_ok.mp h
      unfold readNumberedSurface at hread
      split at hread
      · cases hread
      · next transform mnemonic values hsplit =>
        dsimp only at hread
        split at hread
        · cases hread
        · cases hread
          intro n hn
          obtain rfl : transform = some n := hn
          unfold splitTransform at hsplit
          split at hsplit
          · cases hsplit
          · split at hsplit
            · next m hm =>
              cases hsplit
              exact fits_of_readInt32? hm
            · cases hsplit

end Card

namespace Reading

theorem within_ofBlocks {blocks : Blocks} {n : Nat}
    (h : ∀ card ∈ blocks.cells, Text.bytes card.text.toList ≤ n) :
    ∀ c ∈ (Reading.ofBlocks blocks).deck.cells, c.Within (maxExpandedLength + 2 * n) := by
  refine forall_cells (Blocks.forall_writtenCells ?_ ?_) ?_ ?_
  · exact fun c span hc => ⟨hc.params, hc.surfaces_le⟩
  · intro card hcard c issues hread
    have hle := h card hcard
    exact (Card.within_readCell hread).mono (by omega)
  · exact fun base own hbase hown => ⟨hbase.params.overlay hown.params, hbase.surfaces_le⟩
  · intro c hc
    rw [Cell.settle_eq]
    exact ⟨⟨hc.params.owner, hc.params.fill⟩, hc.surfaces_le⟩

/-- Transforms and periodic partners of surfaces are numbers of 32 bits. -/
theorem fits_transform {blocks : Blocks} {s : Surface}
    (hs : s ∈ (Reading.ofBlocks blocks).deck.surfaces) : ∀ n ∈ s.transform, fitsInt32 n = true := by
  obtain ⟨span, own, issues, hmem, rfl⟩ := Surface.rules.exists_result_of_kept [] [] _ s hs
  obtain ⟨card, -, heq⟩ := List.mem_map.mp hmem
  exact Card.fits_of_readSurface (s := own) (Prod.mk.inj heq).2

/-- Cards that cannot be read and second definitions give no cell. -/
theorem length_cells_le (blocks : Blocks) :
    (Reading.ofBlocks blocks).deck.cells.length ≤ blocks.cells.length := by
  have hkept (before : List Cell) (seen : List (RecordKey × Span))
      (results : List (Span × CardResult Cell)) :
      (Cell.rules.keepFirst before seen results).1.length ≤ results.length := by
    induction results generalizing before seen with
    | nil => exact Nat.le_refl 0
    | cons result rest ih =>
      rcases result with ⟨span, issue | ⟨c, issues⟩⟩
      · exact Nat.le_succ_of_le (ih before seen)
      · cases hearlier : Cell.rules.earlier? seen c with
        | some known =>
          simp only [BlockRules.keepFirst, hearlier]
          exact Nat.le_succ_of_le (ih _ _)
        | none =>
          simp only [BlockRules.keepFirst, hearlier]
          exact Nat.succ_le_succ (ih _ _)
  rw [cells_ofBlocks, List.length_map]
  refine Nat.le_trans (hkept [] [] _) ?_
  rw [BlockRules.results, List.length_map]

end Reading

section Totals

variable {n : Nat}

/-- No term of a region stands for more than the eight planes of a hexagonal prism. -/
theorem Geometry.boundingPlanes_le (d : Deck) (r : Region) :
    boundingPlanes d r ≤ 8 * r.surfaces.length := by
  have hkind (kind : SurfaceKind) : kind.latticePlanes ≤ 8 := by
    rcases kind with shape | name
    · cases shape <;> decide
    · exact Nat.le_add_left 1 7
  have hterm (term : SurfaceRef) : termPlanes d term ≤ 8 := by
    unfold termPlanes
    split
    · exact hkind _
    · exact Nat.le_add_left 1 7
  unfold boundingPlanes
  induction r.surfaces with
  | nil => exact Nat.le_refl 0
  | cons term rest ih =>
    have hle := hterm term
    rw [List.foldr_cons, List.length_cons]
    omega

theorem FillGraph.length_fillTargets_le {c : Cell} (h : c.Within n) :
    (fillTargets c).length ≤ n := by
  unfold fillTargets
  split
  · next f hf => exact (h.params.fill f hf).length_le
  · exact Nat.zero_le n

theorem FillGraph.length_targets_le {cells : List Cell} (h : ∀ c ∈ cells, c.Within n) :
    (cells.flatMap fillTargets).length ≤ cells.length * n := by
  induction cells with
  | nil => exact Nat.zero_le _
  | cons c rest ih =>
    obtain ⟨hc, hrest⟩ := List.forall_mem_cons.mp h
    rw [List.flatMap_cons, List.length_append, List.length_cons, Nat.succ_mul, Nat.add_comm]
    exact Nat.add_le_add (ih hrest) (length_fillTargets_le hc)

end Totals

end TransportDeck
