import TransportDeck.Proofs.Card.Isotopes

/-!
Materials read from bodies in which pairs and options are mixed. An entry is told from its second
token, so every body is read entry by entry, and what comes out depends on the pairs and the options
alone.
-/

namespace TransportDeck.Card

open Number

structure IsotopePair where
  isotope : String
  fractionText : String
  readable : (readFloat? fractionText).isSome

def IsotopePair.fraction (p : IsotopePair) : Float :=
  (readFloat? p.fractionText).get p.readable

theorem IsotopePair.readFloat_fractionText (p : IsotopePair) :
    readFloat p.fractionText = .ok p.fraction := by
  rw [readFloat, ← Option.some_get p.readable]
  rfl

/-- The second token of an option is no fraction. -/
theorem IsotopePair.fractionText_ne (p : IsotopePair) : p.fractionText ≠ "=" := by
  intro heq
  have hreadable := p.readable
  rw [heq] at hreadable
  exact absurd hreadable (by decide +kernel)

inductive MaterialItem
  | pair (p : IsotopePair)
  | option (key value : String)

namespace MaterialItem

def tokens : MaterialItem → List String
  | pair p => [p.isotope, p.fractionText]
  | option key value => [key, "=", value]

def pair? : MaterialItem → Option IsotopePair
  | pair p => some p
  | option .. => none

def option? : MaterialItem → Option (String × String)
  | pair _ => none
  | option key value => some (key, value)

def entry : MaterialItem → MaterialEntry
  | pair p => .ofIsotope p.isotope p.fraction
  | option key value => .option key value

end MaterialItem

def Spells (items : List MaterialItem) (body : List String) : Prop :=
  Text.splitTokens ['='] body = items.flatMap MaterialItem.tokens

/-- What pairs come to, in their order: a component for each isotope with an atomic number from 1 to
118, and a fault for each other token. -/
inductive PairsGive : List IsotopePair → List Component → List CardFault → Prop
  | nil : PairsGive [] [] []
  | component {p : IsotopePair} {ps : List IsotopePair} {cs : List Component}
      {faults : List CardFault} {zaid : Zaid} (hwritten : zaid.WrittenAs p.isotope)
      (hz : 1 ≤ zaid.z ∧ zaid.z ≤ 118) (rest : PairsGive ps cs faults) :
      PairsGive (p :: ps) (⟨zaid, p.fraction⟩ :: cs) faults
  | outside {p : IsotopePair} {ps : List IsotopePair} {cs : List Component}
      {faults : List CardFault} {zaid : Zaid} (hwritten : zaid.WrittenAs p.isotope)
      (hz : ¬ (1 ≤ zaid.z ∧ zaid.z ≤ 118)) (rest : PairsGive ps cs faults) :
      PairsGive (p :: ps) cs (.atomicNumber zaid.z p.isotope :: faults)
  | unreadable {p : IsotopePair} {ps : List IsotopePair} {cs : List Component}
      {faults : List CardFault} (hunwritten : ∀ zaid : Zaid, ¬ zaid.WrittenAs p.isotope)
      (rest : PairsGive ps cs faults) : PairsGive (p :: ps) cs (.zaid p.isotope :: faults)

variable {items : List MaterialItem} {body : List String}

/-- An item in front is read by itself. -/
theorem readMaterialEntries_append (item : MaterialItem) (rest : List String) :
    readMaterialEntries (item.tokens ++ rest) =
      (readMaterialEntries rest).map (item.entry :: ·) := by
  cases item with
  | option key value =>
    change readMaterialEntries (key :: "=" :: value :: rest) = _
    rw [readMaterialEntries, if_pos rfl]
    cases readMaterialEntries rest <;> rfl
  | pair p =>
    change readMaterialEntries (p.isotope :: p.fractionText :: rest) = _
    cases rest with
    | nil => simp only [readMaterialEntries, if_neg p.fractionText_ne, p.readFloat_fractionText]; rfl
    | cons next rest =>
      rw [readMaterialEntries, if_neg p.fractionText_ne, p.readFloat_fractionText]
      cases readMaterialEntries (next :: rest) <;> rfl

theorem readMaterialEntries_items (items : List MaterialItem) :
    readMaterialEntries (items.flatMap MaterialItem.tokens) = .ok (items.map MaterialItem.entry) := by
  induction items with
  | nil => rw [List.flatMap_nil, readMaterialEntries, List.map_nil]
  | cons item items ih => rw [List.flatMap_cons, readMaterialEntries_append, ih]; rfl

def entriesOf (ps : List IsotopePair) : List MaterialEntry :=
  ps.map fun p => .ofIsotope p.isotope p.fraction

def componentsOf (ps : List IsotopePair) : List Component :=
  (entriesOf ps).filterMap MaterialEntry.component?

def faultsOf (ps : List IsotopePair) : List CardFault :=
  (entriesOf ps).filterMap MaterialEntry.rejected?

theorem pairsGive (ps : List IsotopePair) : PairsGive ps (componentsOf ps) (faultsOf ps) := by
  induction ps with
  | nil => exact .nil
  | cons p ps ih =>
    rw [componentsOf, faultsOf, entriesOf, List.map_cons, MaterialEntry.ofIsotope]
    cases hread : readZaid? p.isotope with
    | none =>
      refine .unreadable (fun zaid hwritten => ?_) ih
      rw [readZaid?_of_written hwritten] at hread
      cases hread
    | some zaid =>
      have hwritten : zaid.WrittenAs p.isotope := readZaid?_eq_some_iff.mp hread
      by_cases hz : 1 ≤ zaid.z ∧ zaid.z ≤ CardFault.maxAtomicNumber
      · simp only [if_pos hz]
        exact .component hwritten hz ih
      · simp only [if_neg hz]
        exact .outside hwritten hz ih

namespace PairsGive

variable {ps : List IsotopePair} {cs : List Component} {faults : List CardFault}

/-- Each pair comes to one thing or the other. -/
theorem length_eq (h : PairsGive ps cs faults) : cs.length + faults.length = ps.length := by
  induction h with
  | nil => rfl
  | component => simp; omega
  | outside => simp; omega
  | unreadable => simp; omega

theorem code_eq (h : PairsGive ps cs faults) : ∀ fault ∈ faults, fault.code = .parseMaterialZaid := by
  induction h with
  | nil => exact fun fault hfault => absurd hfault List.not_mem_nil
  | component _ _ _ ih => exact ih
  | outside _ _ _ ih => exact List.forall_mem_cons.mpr ⟨rfl, ih⟩
  | unreadable _ _ ih => exact List.forall_mem_cons.mpr ⟨rfl, ih⟩

/-- The isotope of a component was written on the card, so it is found again in print. -/
theorem printed (h : PairsGive ps cs faults) :
    ∀ c ∈ cs, readZaid? c.zaid.describe = some c.zaid := by
  induction h with
  | nil => exact fun c hc => absurd hc List.not_mem_nil
  | component hwritten _ _ ih =>
    exact List.forall_mem_cons.mpr ⟨Zaid.readZaid?_describe (readZaid?_of_written hwritten), ih⟩
  | outside _ _ _ ih => exact ih
  | unreadable _ _ ih => exact ih

end PairsGive

/-- Options do not stand in the way of pairs. -/
theorem filterMap_entry_pairs {β : Type} {f : MaterialEntry → Option β}
    (hf : ∀ key value, f (.option key value) = none) (items : List MaterialItem) :
    (items.map MaterialItem.entry).filterMap f =
      (entriesOf (items.filterMap MaterialItem.pair?)).filterMap f := by
  induction items with
  | nil => rfl
  | cons item items ih =>
    cases item with
    | pair p =>
      change ((MaterialEntry.ofIsotope p.isotope p.fraction :: items.map MaterialItem.entry).filterMap f) =
        ((MaterialEntry.ofIsotope p.isotope p.fraction ::
          entriesOf (items.filterMap MaterialItem.pair?)).filterMap f)
      rw [List.filterMap_cons, List.filterMap_cons, ih]
    | option key value => exact (List.filterMap_cons_none (hf key value)).trans ih

/-- Nor do pairs stand in the way of options. -/
theorem filterMap_entry_options (items : List MaterialItem) :
    (items.map MaterialItem.entry).filterMap MaterialEntry.option? =
      items.filterMap MaterialItem.option? := by
  have hpair (token : String) (fraction : Float) :
      (MaterialEntry.ofIsotope token fraction).option? = none := by
    unfold MaterialEntry.ofIsotope
    split
    · rfl
    · split <;> rfl
  have hentry : (fun item => MaterialEntry.option? (MaterialItem.entry item)) = MaterialItem.option? := by
    funext item
    cases item with
    | pair p => exact hpair p.isotope p.fraction
    | option key value => rfl
  rw [List.filterMap_map, ← hentry]
  rfl

/-- What a body gives, said in terms of its pairs and its options. -/
theorem readMaterial_of_spells (number : Nat) (hbody : Spells items body)
    (hpairs : items.filterMap MaterialItem.pair? ≠ []) :
    readMaterial number body =
      .ok ({ number
             components := componentsOf (items.filterMap MaterialItem.pair?)
             options := items.filterMap MaterialItem.option? },
        faultsOf (items.filterMap MaterialItem.pair?)) := by
  have hentries : readMaterialEntries (Text.splitTokens ['='] body) =
      .ok (items.map MaterialItem.entry) := by rw [hbody, readMaterialEntries_items]
  have hcomponents : (items.map MaterialItem.entry).filterMap MaterialEntry.component? =
      componentsOf (items.filterMap MaterialItem.pair?) :=
    filterMap_entry_pairs (fun _ _ => rfl) items
  have hfaults : (items.map MaterialItem.entry).filterMap MaterialEntry.rejected? =
      faultsOf (items.filterMap MaterialItem.pair?) :=
    filterMap_entry_pairs (fun _ _ => rfl) items
  generalize items.filterMap MaterialItem.pair? = ps at hpairs hcomponents hfaults
  have hsome : ((componentsOf ps).isEmpty && (faultsOf ps).isEmpty) = false := by
    have hlength := (pairsGive ps).length_eq
    have hpos := List.length_pos_iff.mpr hpairs
    rw [Bool.eq_false_iff, Ne, Bool.and_eq_true, List.isEmpty_iff_length_eq_zero,
      List.isEmpty_iff_length_eq_zero]
    omega
  rw [readMaterial, hentries]
  simp only [Except.bind, bind, hcomponents, hfaults, filterMap_entry_options, hsome]
  rfl

/-- A body with at least one pair is read, whatever the order of pairs and options: each pair comes to
a component or to a fault, each option is kept, and no other body with the same pairs and options is
read in another way. The isotope of each component is found again in what it is printed with. -/
theorem readMaterial_interleaved (number : Nat) (hbody : Spells items body)
    (hpairs : items.filterMap MaterialItem.pair? ≠ []) :
    ∃ m faults, readMaterial number body = .ok (m, faults) ∧ m.number = number ∧
      PairsGive (items.filterMap MaterialItem.pair?) m.components faults ∧
      (∀ fault ∈ faults, fault.code = .parseMaterialZaid) ∧
      m.options = items.filterMap MaterialItem.option? ∧
      (∀ c ∈ m.components, readZaid? c.zaid.describe = some c.zaid) ∧
      ∀ items' body', Spells items' body' →
        items'.filterMap MaterialItem.pair? = items.filterMap MaterialItem.pair? →
        items'.filterMap MaterialItem.option? = items.filterMap MaterialItem.option? →
        readMaterial number body' = .ok (m, faults) := by
  have hgive := pairsGive (items.filterMap MaterialItem.pair?)
  refine ⟨_, _, readMaterial_of_spells number hbody hpairs, rfl, hgive, hgive.code_eq, rfl,
    hgive.printed, ?_⟩
  intro items' body' hbody' hsame hoptions
  rw [readMaterial_of_spells number hbody' (hsame ▸ hpairs), hsame, hoptions]

def mixedPairs : List IsotopePair :=
  [⟨"1001.70c", "0.5", by decide +kernel⟩, ⟨"001001", "-1", by decide +kernel⟩,
    ⟨"hydrogen", "2.5e-1", by decide +kernel⟩, ⟨"200000", "1", by decide +kernel⟩]

def optionsOutside : List MaterialItem :=
  .option "nlib" "80c" :: mixedPairs.map .pair ++ [.option "gas" "1"]

def optionsInside : List MaterialItem :=
  (mixedPairs.take 2).map .pair ++ .option "nlib" "80c" :: .option "gas" "1" ::
    (mixedPairs.drop 2).map .pair

def bodyOutside : List String :=
  Text.tokens [] "nlib=80c 1001.70C 0.5 001001 -1 hydrogen 2.5e-1 200000 1 gas= 1".toList

def bodyInside : List String :=
  Text.tokens [] "1001.70c 0.5 001001 -1 nlib =80c gas = 1 hydrogen 2.5e-1 200000 1".toList

theorem readMaterial_mixedPairs :
    ∃ m faults, readMaterial 5 bodyOutside = .ok (m, faults) ∧
      readMaterial 5 bodyInside = .ok (m, faults) ∧
      m.components.map (fun c => c.zaid.describe) = ["1001.70c", "1001"] ∧
      faults = [.zaid "hydrogen", .atomicNumber 200 "200000"] ∧
      m.options = [("nlib", "80c"), ("gas", "1")] := by
  have hbody : Spells optionsOutside bodyOutside := by
    unfold Spells
    decide +kernel
  have hinside : Spells optionsInside bodyInside := by
    unfold Spells
    decide +kernel
  have hpairs : optionsOutside.filterMap MaterialItem.pair? ≠ [] := List.cons_ne_nil _ _
  obtain ⟨m, faults, hread, _, _, _, hoptions, _, hsame⟩ := readMaterial_interleaved 5 hbody hpairs
  have hvalue := readMaterial_of_spells 5 hbody hpairs
  rw [hread] at hvalue
  refine ⟨m, faults, hread, hsame optionsInside bodyInside hinside rfl rfl, ?_, ?_, hoptions⟩
  · cases hvalue
    decide +kernel
  · cases hvalue
    decide +kernel

end TransportDeck.Card
