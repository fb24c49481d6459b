import TransportDeck.Proofs.Card.Regions
import TransportDeck.Proofs.Like.Expand
import TransportDeck.Proofs.Reading.CellCards

namespace TransportDeck

def Region.Readable (r : Region) : Prop := Card.readRegion r.text.toList = .ok r

namespace Reading

variable {blocks : Blocks}

theorem readable_writtenCells : ∀ c ∈ blocks.writtenCells, c.region.Readable := by
  refine Blocks.forall_writtenCells (fun c span h => h) fun card _ c issues hread => ?_
  obtain ⟨_, _, _, _, hform⟩ := Card.form_of_readCell hread
  cases hform with
  | like => exact rfl
  | full _ _ hregion => exact Card.readRegion_text hregion

theorem readable_ofBlocks : ∀ c ∈ (Reading.ofBlocks blocks).deck.cells, c.region.Readable := by
  refine forall_cells readable_writtenCells (fun base own hbase _ => hbase) fun c hc => ?_
  rw [Cell.settle_eq]
  exact hc

end Reading

namespace Card

/-- Expressions are read word by word: two with a space between them mention what each of them does,
operators are no more than spaces, and a region is read back from its text and from its terms written
out. So every cell of a deck has the region that its text gives. -/
theorem readRegion_wordwise :
    (∀ front back surfaces complements, Mentions (front ++ ' ' :: back) surfaces complements ↔
      ∃ s c s' c', Mentions front s c ∧ Mentions back s' c' ∧
        surfaces = s ++ s' ∧ complements = c ++ c') ∧
    (∀ text spaced surfaces complements, Respaced text spaced →
      (Mentions spaced surfaces complements ↔ Mentions text surfaces complements)) ∧
    (∀ text r, readRegion text = .ok r → readRegion r.text.toList = .ok r ∧
      Mentions r.termsText.toList r.surfaces r.complements) ∧
    (∀ blocks, ∀ c ∈ (Reading.ofBlocks blocks).deck.cells,
      readRegion c.region.text.toList = .ok c.region) := by
  have hspace : Text.isBlank ' ' = true := by decide
  refine ⟨fun _ _ _ _ => mentions_append_cons_iff hspace, fun _ _ _ _ h => h.mentions_iff,
    fun _ _ h => ⟨readRegion_text h, mentions_termsText h⟩, fun _ => Reading.readable_ofBlocks⟩

def outerRegion : String := "(-1:+2.3) #3 #(05)"

def outerBlocks : Blocks where
  title := "outer"
  titleLine := 1
  messages := []
  cells := [⟨"1 0 " ++ outerRegion, ⟨2, 2⟩, []⟩, ⟨"2 like 1 but u=1", ⟨3, 3⟩, []⟩]
  surfaces := []
  data := []

theorem region_of_outerBlocks : ∃ r c, readRegion outerRegion.toList = .ok r ∧
    readRegion r.text.toList = .ok r ∧
    r.termsText = "-1 2.3 5 #3" ∧ Mentions r.termsText.toList r.surfaces r.complements ∧
    Respaced outerRegion.toList " -1:+2.3) #3 # 05)".toList ∧
    Mentions " -1:+2.3) #3 # 05)".toList r.surfaces r.complements ∧
    Mentions (outerRegion.toList ++ ' ' :: "#7:6".toList) (r.surfaces ++ [⟨6, .positive, none⟩])
      (r.complements ++ [7]) ∧
    c ∈ (Reading.ofBlocks outerBlocks).deck.cells ∧ c.like = some 1 ∧ c.region = r ∧
    readRegion c.region.text.toList = .ok c.region := by
  obtain ⟨happend, hrespaced, hback, hcells⟩ := readRegion_wordwise
  have hread : (readRegion outerRegion.toList).toOption = some ⟨outerRegion,
      [⟨1, .negative, none⟩, ⟨2, .positive, some 3⟩, ⟨5, .positive, none⟩], [3]⟩ := by
    decide +kernel
  have hmore : (readRegion "#7:6".toList).toOption =
      some ⟨"#7:6", [⟨6, .positive, none⟩], [7]⟩ := by decide +kernel
  have hspaced : Respaced outerRegion.toList " -1:+2.3) #3 # 05)".toList := by
    unfold Respaced
    decide +kernel
  have hmentions : Mentions outerRegion.toList
      [⟨1, .negative, none⟩, ⟨2, .positive, some 3⟩, ⟨5, .positive, none⟩] [3] :=
    ⟨_, ok_of_toOption hread, rfl, rfl⟩
  have hlike : (Reading.ofBlocks outerBlocks).deck.cells.map (fun c => (c.like, c.region.text)) =
      [(none, outerRegion), (some 1, outerRegion)] := by decide +kernel
  simp only [List.map_eq_cons_iff, List.map_eq_nil_iff, Prod.mk.injEq] at hlike
  obtain ⟨_, _, hlist, -, c, _, rfl, ⟨hbase, htext⟩, rfl⟩ := hlike
  have hc : c ∈ (Reading.ofBlocks outerBlocks).deck.cells := by simp [hlist]
  have hregion := hcells outerBlocks c hc
  refine ⟨_, c, ok_of_toOption hread, (hback _ _ (ok_of_toOption hread)).1, by decide +kernel,
    (hback _ _ (ok_of_toOption hread)).2, hspaced, (hrespaced _ _ _ _ hspaced).mpr hmentions,
    (happend _ _ _ _).mpr ⟨_, _, _, _, hmentions, ⟨_, ok_of_toOption hmore, rfl, rfl⟩, rfl, rfl⟩,
    hc, hbase, ?_, hregion⟩
  rw [htext] at hregion
  exact Except.ok.inj (hregion.symm.trans (ok_of_toOption hread))

end Card

end TransportDeck
