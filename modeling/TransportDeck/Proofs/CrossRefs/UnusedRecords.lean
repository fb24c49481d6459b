import TransportDeck.Proofs.CrossRefs.CellLists
import TransportDeck.Proofs.CrossRefs.ReportsByCode
import TransportDeck.Proofs.Reference.Naming

namespace TransportDeck

namespace Deck

inductive MentionsSurface (d : Deck) (s : Nat) : Prop
  | region {c : Cell} : c ∈ d.cells → s ∈ c.region.surfaceIds → d.MentionsSurface s
  | partner {x : Surface} {n : Int} : x ∈ d.surfaces → x.transform = some n → n < 0 →
      n.natAbs = s → d.MentionsSurface s
  | tally {card : DataCard} {t : Tally} : card ∈ d.data → card.payload = .tally t →
      ⟨.surface, s⟩ ∈ t.bins → d.MentionsSurface s
  | source {card : DataCard} {groups : KeywordGroups} {group : String × List String} :
      card ∈ d.data → card.payload = .source groups → group ∈ groups →
      SourceNames group (.sourceSurface s) → d.MentionsSurface s

inductive MentionsTransform (d : Deck) (t : Nat) : Prop
  | surface {x : Surface} {n : Int} : x ∈ d.surfaces → x.transform = some n → 0 < n →
      n.natAbs = t → d.MentionsTransform t
  | cell {c : Cell} : c ∈ d.cells → c.params.transform = some (.reference t) →
      d.MentionsTransform t
  | fill {c : Cell} {f : Fill} : c ∈ d.cells → c.params.fill = some f →
      .reference t ∈ f.transforms → d.MentionsTransform t
  | source {card : DataCard} {groups : KeywordGroups} {group : String × List String} :
      card ∈ d.data → card.payload = .source groups → group ∈ groups →
      SourceNames group (.sourceTransform t) → d.MentionsTransform t

variable {d : Deck} {n : Nat}

theorem mentionsSurface_iff :
    d.MentionsSurface n ↔ ∃ r, d.Names r ∧ r.target = ⟨.surface, n⟩ := by
  constructor
  · intro h
    cases h with
    | @region c hc hn =>
      obtain ⟨term, hterm, rfl⟩ := List.mem_map.mp hn
      exact ⟨.regionSurface c.number term.id, .cell hc (.surface hterm), rfl⟩
    | @partner x _ hx hpartner hneg hn =>
      exact ⟨.periodicPartner x.number n, .surface hx (hn ▸ .partner hpartner hneg), rfl⟩
    | @tally _ t hcard ht hbin =>
      exact ⟨.tallySurface t.number n, .card hcard (.tallySurface ht hbin), rfl⟩
    | source hcard hgroups hgroup hn =>
      exact ⟨.sourceSurface n, .card hcard (.source hgroups hgroup hn), rfl⟩
  · rintro ⟨r, hr, htarget⟩
    -- of all that a card can name, four places hold surfaces
    cases hr with
    | cell hc hr =>
      cases hr with
      | surface hterm =>
        cases htarget
        exact .region hc (List.mem_map_of_mem hterm)
      | _ => cases htarget
    | surface hx hr =>
      cases hr with
      | partner hpartner hneg =>
        cases htarget
        exact .partner hx hpartner hneg rfl
      | transform => cases htarget
    | card hcard hr =>
      cases hr with
      | tallySurface ht hbin =>
        cases htarget
        exact .tally hcard ht hbin
      | source hgroups hgroup hnames =>
        cases hnames with
        | surface hvalue hne =>
          cases htarget
          exact .source hcard hgroups hgroup (.surface hvalue hne)
        | _ => cases htarget
      | _ => cases htarget

theorem mentionsTransform_iff :
    d.MentionsTransform n ↔ ∃ r, d.Names r ∧ r.target = ⟨.transform, n⟩ := by
  constructor
  · intro h
    cases h with
    | @surface x _ hx htransform hpos hn =>
      exact ⟨.surfaceTransform x.number n, .surface hx (hn ▸ .transform htransform hpos), rfl⟩
    | @cell c hc hn => exact ⟨.cellTransform c.number n, .cell hc (.transform hn), rfl⟩
    | @fill c _ hc hf hn => exact ⟨.fillTransform c.number n, .cell hc (.fillTransform hf hn), rfl⟩
    | source hcard hgroups hgroup hn =>
      exact ⟨.sourceTransform n, .card hcard (.source hgroups hgroup hn), rfl⟩
  · rintro ⟨r, hr, htarget⟩
    cases hr with
    | cell hc hr =>
      cases hr with
      | transform hn =>
        cases htarget
        exact .cell hc hn
      | fillTransform hf hn =>
        cases htarget
        exact .fill hc hf hn
      | _ => cases htarget
    | surface hx hr =>
      cases hr with
      | transform htransform hpos =>
        cases htarget
        exact .surface hx htransform hpos rfl
      | partner => cases htarget
    | card hcard hr =>
      cases hr with
      | source hgroups hgroup hnames =>
        cases hnames with
        | transform hvalue =>
          cases htarget
          exact .source hcard hgroups hgroup (.transform hvalue)
        | _ => cases htarget
      | _ => cases htarget

end Deck

def Diagnostic.facts (r : Diagnostic) : Code × Severity × List (String × Int) :=
  (r.code, r.severity, r.data.entries)

def warnings (code : Code) (key : String) (numbers : List Nat) :
    List (Code × Severity × List (String × Int)) :=
  numbers.map fun n : Nat => (code, .warning, [(key, (n : Int))])

namespace CrossRefs

variable {d : Deck} {n : Nat}

theorem mem_referenced {kind : TargetKind} :
    n ∈ referenced d kind ↔ ∃ r, d.Names r ∧ r.target = ⟨kind, n⟩ := by
  rw [referenced, mem_sortDistinct, List.mem_map]
  constructor
  · rintro ⟨target, htarget, rfl⟩
    obtain ⟨hmem, hkind⟩ := List.mem_filter.mp htarget
    obtain ⟨r, hr, rfl⟩ := List.mem_map.mp hmem
    exact ⟨r, Deck.mem_references_iff.mp hr, by rw [← beq_iff_eq.mp hkind]⟩
  · rintro ⟨r, hr, htarget⟩
    refine ⟨⟨kind, n⟩, List.mem_filter.mpr ⟨?_, beq_self_eq_true kind⟩, rfl⟩
    exact htarget ▸ List.mem_map_of_mem (Deck.mem_references_iff.mpr hr)

theorem mem_unused {α : Type} {records : List α} {number : α → Nat} {span : α → Span}
    {used : List Nat} :
    n ∈ unused (.ofList (records.map fun a => (number a, span a))) used ↔
      (∃ a ∈ records, number a = n) ∧ n ∉ used := by
  rw [unused, List.mem_filter, ← Table.contains_iff_mem_keys, contains_ofList_map, Bool.not_eq_true',
    ← Bool.not_eq_true, List.contains_iff_mem]

theorem mem_unusedSurfaces : n ∈ (ofDeck d).unusedSurfaces ↔
    (∃ s ∈ d.surfaces, s.number = n) ∧ ¬ d.MentionsSurface n := by
  rw [Deck.mentionsSurface_iff, ← mem_referenced]
  exact mem_unused

theorem mem_unusedMaterials : n ∈ (ofDeck d).unusedMaterials ↔
    (∃ m ∈ d.materials, m.number = n) ∧ ¬ ∃ c ∈ d.cells, c.MadeOf n := by
  rw [← mem_keys_materialUsers]
  exact mem_unused

theorem mem_unusedTransforms : n ∈ (ofDeck d).unusedTransforms ↔
    (∃ t ∈ d.transforms, t.number = n) ∧ ¬ d.MentionsTransform n := by
  rw [Deck.mentionsTransform_iff, ← mem_referenced]
  exact mem_unused

theorem pairwise_unused (defined : Table Nat Span) (used : List Nat) :
    (unused defined used).Pairwise (· < ·) :=
  defined.pairwise_keys.filter _

theorem pairwise_unusedUniverses (d : Deck) :
    (ofDeck d).unusedUniverses.Pairwise (· < ·) :=
  (ofDeck d).universes.pairwise_keys.filter _

theorem facts_unusedReports (refs : CrossRefs) : refs.unusedReports.map Diagnostic.facts =
    warnings .unusedSurface "surface" refs.unusedSurfaces ++
    warnings .unusedMaterial "material" refs.unusedMaterials ++
    warnings .unusedTransform "transform" refs.unusedTransforms ++
    warnings .unusedUniverse "universe" refs.unusedUniverses := by
  have hfacts {code : Code} {key : String} {finding : Nat → Finding} {span : Nat → Option Span}
      (hfinding : ∀ n, ((finding n).report (span n)).facts = (code, .warning, [(key, (n : Int))]))
      (numbers : List Nat) :
      (numbers.map fun n => (finding n).report (span n)).map Diagnostic.facts =
        warnings code key numbers := by
    rw [List.map_map, warnings]
    apply List.map_congr_left
    exact fun n _ => hfinding n
  rw [unusedReports, List.map_append, List.map_append, List.map_append, hfacts fun _ => rfl,
    hfacts fun _ => rfl, hfacts fun _ => rfl, hfacts fun _ => rfl]

end CrossRefs

end TransportDeck
