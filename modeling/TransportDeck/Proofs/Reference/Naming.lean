import TransportDeck.Reference
import TransportDeck.Table.Lookup

namespace TransportDeck

inductive Cell.Names (c : Cell) : Reference → Prop
  | surface {term : SurfaceRef} : term ∈ c.region.surfaces →
      c.Names (.regionSurface c.number term.id)
  | complement {n : Nat} : n ∈ c.region.complements → c.Names (.complement c.number n)
  | material : c.material ≠ 0 → c.Names (.cellMaterial c.number c.material)
  | transform {n : Nat} : c.params.transform = some (.reference n) →
      c.Names (.cellTransform c.number n)
  | filled {f : Fill} {u : Nat} : c.params.fill = some f → u ∈ f.targets →
      c.Names (.fillUniverse c.number u)
  | fillTransform {f : Fill} {n : Nat} : c.params.fill = some f → .reference n ∈ f.transforms →
      c.Names (.fillTransform c.number n)

/-- A surface names a transform by a positive number and its periodic partner by a negative one. -/
inductive Surface.Names (s : Surface) : Reference → Prop
  | transform {n : Int} : s.transform = some n → 0 < n → s.Names (.surfaceTransform s.number n.natAbs)
  | partner {n : Int} : s.transform = some n → n < 0 → s.Names (.periodicPartner s.number n.natAbs)

/-- A source keyword whose first value is a plain number. Values such as `d1` stand for
distributions. -/
inductive SourceNames : String × List String → Reference → Prop
  | cell {value : String} {rest : List String} {n : Nat} : Number.readUnsigned? value = some n →
      SourceNames ("cel", value :: rest) (.sourceCell n)
  | surface {value : String} {rest : List String} {n : Nat} : Number.readUnsigned? value = some n →
      n ≠ 0 → SourceNames ("sur", value :: rest) (.sourceSurface n)
  | transform {value : String} {rest : List String} {n : Nat} :
      Number.readUnsigned? value = some n → SourceNames ("tr", value :: rest) (.sourceTransform n)

inductive DataCard.Names (card : DataCard) : Reference → Prop
  | thermal {t : Thermal} : card.payload = .thermal t → card.Names (.thermalMaterial t.material)
  | tallyCell {t : Tally} {n : Nat} : card.payload = .tally t → ⟨.cell, n⟩ ∈ t.bins →
      card.Names (.tallyCell t.number n)
  | tallySurface {t : Tally} {n : Nat} : card.payload = .tally t → ⟨.surface, n⟩ ∈ t.bins →
      card.Names (.tallySurface t.number n)
  | source {groups : KeywordGroups} {group : String × List String} {r : Reference} :
      card.payload = .source groups → group ∈ groups → SourceNames group r → card.Names r

inductive Deck.Names (d : Deck) : Reference → Prop
  | cell {c : Cell} {r : Reference} : c ∈ d.cells → c.Names r → d.Names r
  | surface {s : Surface} {r : Reference} : s ∈ d.surfaces → s.Names r → d.Names r
  | card {card : DataCard} {r : Reference} : card ∈ d.data → card.Names r → d.Names r

variable {r : Reference}

theorem Cell.mem_references_iff {c : Cell} : r ∈ c.references ↔ c.Names r := by
  have htransform {n : Nat} {spec : TransformSpec} : spec.reference? = some n ↔ spec = .reference n := by
    cases spec <;> simp [TransformSpec.reference?]
  constructor
  · intro hr
    simp only [references, List.mem_append, List.mem_map, List.mem_eraseDups] at hr
    rcases hr with (((hsurface | hcomplement) | hmaterial) | hcell) | hfill
    · obtain ⟨id, hid, rfl⟩ := hsurface
      obtain ⟨term, hterm, rfl⟩ := List.mem_map.mp hid
      exact .surface hterm
    · obtain ⟨n, hn, rfl⟩ := hcomplement
      exact .complement hn
    · split at hmaterial
      · cases hmaterial
      · next hne =>
        rw [List.mem_singleton.mp hmaterial]
        exact .material hne
    · obtain ⟨n, hn, rfl⟩ := hcell
      obtain ⟨spec, hspec, hn⟩ := Option.bind_eq_some_iff.mp (Option.mem_toList.mp hn)
      exact .transform (htransform.mp hn ▸ hspec)
    · split at hfill
      · cases hfill
      · next f hf =>
        simp only [List.mem_append, List.mem_map, mem_sortDistinct, List.mem_filterMap] at hfill
        rcases hfill with ⟨u, hu, rfl⟩ | ⟨n, ⟨spec, hspec, hn⟩, rfl⟩
        · exact .filled hf hu
        · exact .fillTransform hf (htransform.mp hn ▸ hspec)
  · intro hr
    cases hr with
    | @surface term hterm =>
      have hid : term.id ∈ c.region.surfaceIds := List.mem_map_of_mem hterm
      simp [references, hid]
    | complement hn => simp [references, hn]
    | material hne => simp [references, hne]
    | transform hn => simp [references, hn, TransformSpec.reference?]
    | filled hf hu => simp [references, hf, hu]
    | @fillTransform f n hf hn =>
      have hspec : ∃ spec ∈ f.transforms, spec.reference? = some n := ⟨_, hn, rfl⟩
      simp [references, hf, hspec]

theorem Surface.mem_references_iff {s : Surface} : r ∈ s.references ↔ s.Names r := by
  constructor
  · intro hr
    simp only [references, transformId?, periodicPartner?, List.mem_append, List.mem_map,
      Option.mem_toList, Option.map_eq_some_iff, Option.filter_eq_some_iff, decide_eq_true_eq] at hr
    rcases hr with ⟨_, ⟨n, ⟨hn, hpos⟩, rfl⟩, rfl⟩ | ⟨_, ⟨n, ⟨hn, hneg⟩, rfl⟩, rfl⟩
    · exact .transform hn hpos
    · exact .partner hn hneg
  · intro hr
    cases hr with
    | @transform n hn hpos =>
      have hid : s.transformId? = some n.natAbs := by
        simp [transformId?, hn, Option.filter_some, hpos]
      simp [references, hid]
    | @partner n hn hneg =>
      have hid : s.periodicPartner? = some n.natAbs := by
        simp [periodicPartner?, hn, Option.filter_some, hneg]
      simp [references, hid]

theorem sourceReference?_eq_some_iff {group : String × List String} :
    sourceReference? group = some r ↔ SourceNames group r := by
  obtain ⟨keyword, values⟩ := group
  constructor
  · intro hr
    unfold sourceReference? at hr
    split at hr
    · cases hr
    · next n hn =>
      obtain ⟨value, hvalue, hn⟩ := Option.bind_eq_some_iff.mp hn
      obtain ⟨rest, rfl⟩ := List.head?_eq_some_iff.mp hvalue
      split at hr
      · next hkey =>
        rw [← Option.some.inj hr]
        cases hkey
        exact .cell hn
      · next hkey =>
        cases hkey
        split at hr
        · cases hr
        · next hne =>
          rw [← Option.some.inj hr]
          exact .surface hn hne
      · next hkey =>
        rw [← Option.some.inj hr]
        cases hkey
        exact .transform hn
      · cases hr
  · intro hr
    cases hr with
    | cell hn => simp [sourceReference?, hn]
    | surface hn hne => simp [sourceReference?, hn, hne]
    | transform hn => simp [sourceReference?, hn]

theorem Tally.mem_references_iff {t : Tally} : r ∈ t.references ↔
    ∃ bin ∈ t.bins, TallyRef.reference? t.number bin = some r := by
  simp only [references, List.mem_filterMap, List.mem_eraseDups]

theorem DataCard.mem_references_iff {card : DataCard} : r ∈ card.references ↔ card.Names r := by
  constructor
  · intro hr
    unfold references at hr
    split at hr
    · next t ht =>
      rw [List.mem_singleton.mp hr]
      exact .thermal ht
    · next t ht =>
      obtain ⟨⟨entity, n⟩, hbin, hr⟩ := Tally.mem_references_iff.mp hr
      cases entity with
      | cell =>
        rw [← Option.some.inj hr]
        exact .tallyCell ht hbin
      | surface =>
        rw [← Option.some.inj hr]
        exact .tallySurface ht hbin
      | point => cases hr
    · next groups hgroups =>
      obtain ⟨group, hgroup, hr⟩ := List.mem_filterMap.mp hr
      exact .source hgroups hgroup (sourceReference?_eq_some_iff.mp hr)
    · cases hr
  · intro hr
    unfold references
    cases hr with
    | thermal ht => simp [ht]
    | tallyCell ht hbin =>
      rw [ht]
      exact Tally.mem_references_iff.mpr ⟨_, hbin, rfl⟩
    | tallySurface ht hbin =>
      rw [ht]
      exact Tally.mem_references_iff.mpr ⟨_, hbin, rfl⟩
    | source hgroups hgroup hr =>
      rw [hgroups]
      exact List.mem_filterMap.mpr ⟨_, hgroup, sourceReference?_eq_some_iff.mpr hr⟩

theorem Deck.mem_references_iff {d : Deck} : r ∈ d.references ↔ d.Names r := by
  simp only [references, List.mem_append, List.mem_flatMap, Cell.mem_references_iff,
    Surface.mem_references_iff, DataCard.mem_references_iff]
  constructor
  · rintro ((⟨c, hc, hr⟩ | ⟨s, hs, hr⟩) | ⟨card, hcard, hr⟩)
    · exact .cell hc hr
    · exact .surface hs hr
    · exact .card hcard hr
  · intro hr
    cases hr with
    | cell hc hr => exact .inl (.inl ⟨_, hc, hr⟩)
    | surface hs hr => exact .inl (.inr ⟨_, hs, hr⟩)
    | card hcard hr => exact .inr ⟨_, hcard, hr⟩

end TransportDeck
