import Mathlib.Data.List.Forall2
import TransportDeck.Card.Region
import TransportDeck.Proofs.Number.Numerals
import TransportDeck.Proofs.Text.Words

namespace TransportDeck

open Number

structure SurfaceRef.InRange (ref : SurfaceRef) : Prop where
  pos : 0 < ref.id
  id_le : ref.id ≤ maxId
  facet_le : ∀ n ∈ ref.facet, n ≤ Card.maxFacet

theorem SurfaceRef.toList_describe (ref : SurfaceRef) : ref.describe.toList =
    (if ref.sense = .negative then ['-'] else []) ++ Nat.toDigits 10 ref.id ++
      (ref.facet.map fun n => '.' :: Nat.toDigits 10 n).getD [] := by
  obtain ⟨id, sense, facet⟩ := ref
  cases sense <;> cases facet <;> simp [describe, toString]

def Region.termsText (r : Region) : String :=
  Text.joined " " (r.surfaces.map SurfaceRef.describe ++ r.complements.map fun n => s!"#{n}")

namespace Card

section Words

variable {text : List Char}

theorem regionWords_append_cons {blank : Char} (h : Text.isBlank blank = true)
    (front back : List Char) :
    regionWords (front ++ blank :: back) = regionWords front ++ regionWords back := by
  have hkept : Text.isBlank (if isRegionOperator blank then ' ' else blank) = true := by
    split
    · rfl
    · exact h
  rw [regionWords, List.map_append, List.map_cons, Text.words_append_cons hkept]
  rfl

theorem regionWords_eq_flatMap (text : List Char) :
    regionWords text = (Text.words text).flatMap regionWords :=
  (Text.flatMap_words rfl (fun front back _ h => regionWords_append_cons h front back) text).symm

def IsTerm (word : List Char) : Prop :=
  Text.IsWord word ∧ ∀ c ∈ word, isRegionOperator c = false

theorem IsTerm.regionWords_eq {word : List Char} (h : IsTerm word) : regionWords word = [word] := by
  have hsame : (word.map fun c => if isRegionOperator c then ' ' else c) = word := by
    rw [List.map_congr_left (g := id) fun c hc => by rw [h.2 c hc]; rfl, List.map_id]
  rw [regionWords, hsame, h.1.words_eq]

/-- One expression comes from the other by writing a space for some of its operators. -/
def Respaced (text spaced : List Char) : Prop :=
  List.Forall₂ (fun c d => d = c ∨ isRegionOperator c = true ∧ d = ' ') text spaced

theorem Respaced.regionWords_eq {spaced : List Char} (h : Respaced text spaced) :
    regionWords spaced = regionWords text := by
  have hmap : (spaced.map fun c => if isRegionOperator c then ' ' else c) =
      text.map fun c => if isRegionOperator c then ' ' else c := by
    induction h with
    | nil => rfl
    | cons hchar _ ih =>
      rw [List.map_cons, List.map_cons, ih]
      rcases hchar with rfl | ⟨hoperator, rfl⟩
      · rfl
      · rw [if_pos hoperator]
        rfl
  rw [regionWords, hmap, regionWords]

end Words

section Terms

variable {text : List Char} {surfaces : List SurfaceRef} {complements : List Nat} {r : Region}

/-- The expression can be read, and these are its surface terms and its complements in order. -/
def Mentions (text : List Char) (surfaces : List SurfaceRef) (complements : List Nat) : Prop :=
  ∃ r, readRegion text = .ok r ∧ r.surfaces = surfaces ∧ r.complements = complements

theorem readRegion_eq_ok_iff : readRegion text = .ok r ↔
    ∃ terms, (regionWords text).mapM readRegionTerm = .ok terms ∧
      r = ⟨Text.joined " " ((Text.words text).map String.ofList),
        terms.filterMap RegionTerm.surface?, terms.filterMap RegionTerm.complement?⟩ := by
  rw [readRegion, bind_eq_ok]
  refine exists_congr fun terms => and_congr_right fun _ => ?_
  constructor
  · rintro ⟨⟩
    rfl
  · rintro rfl
    rfl

theorem mentions_iff : Mentions text surfaces complements ↔
    ∃ terms, (regionWords text).mapM readRegionTerm = .ok terms ∧
      surfaces = terms.filterMap RegionTerm.surface? ∧
      complements = terms.filterMap RegionTerm.complement? := by
  constructor
  · rintro ⟨r, hread, rfl, rfl⟩
    obtain ⟨terms, hterms, rfl⟩ := readRegion_eq_ok_iff.mp hread
    exact ⟨terms, hterms, rfl, rfl⟩
  · rintro ⟨terms, hterms, rfl, rfl⟩
    exact ⟨_, readRegion_eq_ok_iff.mpr ⟨terms, hterms, rfl⟩, rfl, rfl⟩

theorem mapM_append_eq_ok_iff {α β : Type} {f : α → Except CardFault β} {xs ys : List α}
    {zs : List β} : (xs ++ ys).mapM f = .ok zs ↔
      ∃ as bs, xs.mapM f = .ok as ∧ ys.mapM f = .ok bs ∧ zs = as ++ bs := by
  rw [List.mapM_append, bind_eq_ok]
  constructor
  · rintro ⟨as, has, h⟩
    obtain ⟨bs, hbs, ⟨⟩⟩ := bind_eq_ok.mp h
    exact ⟨as, bs, has, hbs, rfl⟩
  · rintro ⟨as, bs, has, hbs, rfl⟩
    exact ⟨as, has, bind_eq_ok.mpr ⟨bs, hbs, rfl⟩⟩

/-- Two expressions with a blank between them mention what the first does and then what the second
does. -/
theorem mentions_append_cons_iff {blank : Char} (h : Text.isBlank blank = true)
    {front back : List Char} : Mentions (front ++ blank :: back) surfaces complements ↔
      ∃ s c s' c', Mentions front s c ∧ Mentions back s' c' ∧
        surfaces = s ++ s' ∧ complements = c ++ c' := by
  simp only [mentions_iff, regionWords_append_cons h, mapM_append_eq_ok_iff]
  constructor
  · rintro ⟨_, ⟨terms, terms', hterms, hterms', rfl⟩, rfl, rfl⟩
    exact ⟨_, _, _, _, ⟨terms, hterms, rfl, rfl⟩, ⟨terms', hterms', rfl, rfl⟩,
      List.filterMap_append, List.filterMap_append⟩
  · rintro ⟨_, _, _, _, ⟨terms, hterms, rfl, rfl⟩, ⟨terms', hterms', rfl, rfl⟩, rfl, rfl⟩
    exact ⟨terms ++ terms', ⟨terms, terms', hterms, hterms', rfl⟩, List.filterMap_append.symm,
      List.filterMap_append.symm⟩

theorem Respaced.mentions_iff {spaced : List Char} (h : Respaced text spaced) :
    Mentions spaced surfaces complements ↔ Mentions text surfaces complements := by
  rw [Card.mentions_iff, h.regionWords_eq, ← Card.mentions_iff]

/-- The text of a region is its expression with single blanks between the words. -/
theorem readRegion_text (h : readRegion text = .ok r) : readRegion r.text.toList = .ok r := by
  obtain ⟨terms, hterms, rfl⟩ := readRegion_eq_ok_iff.mp h
  have hwords : Text.words (Text.joined " " ((Text.words text).map String.ofList)).toList =
      Text.words text := by
    have hlists (words : List (List Char)) : (words.map String.ofList).map String.toList = words := by
      simp [Function.comp_def]
    rw [Text.words_joined, hlists]
    intro t ht
    obtain ⟨word, hword, rfl⟩ := List.mem_map.mp ht
    rw [String.toList_ofList]
    exact Text.isWord_of_mem_words hword
  refine readRegion_eq_ok_iff.mpr ⟨terms, ?_, by rw [hwords]⟩
  rw [regionWords_eq_flatMap, hwords, ← regionWords_eq_flatMap]
  exact hterms

end Terms

section Described

variable {ref : SurfaceRef} {text : List Char} {r : Region} {n : Nat}

theorem inRange_of_readSurfaceRef? {word : List Char} (h : readSurfaceRef? word = some ref) :
    ref.InRange := by
  unfold readSurfaceRef? at h
  dsimp only at h
  split at h
  · cases h
  · next id rest hscan =>
    obtain ⟨_, _, hid, _⟩ := scanNat?_eq_some_iff.mp hscan
    split at h
    · next facet hfacet =>
      split at h
      · cases h
      · next hne =>
        cases h
        refine ⟨Nat.pos_of_ne_zero hne, hid, ?_⟩
        rintro n ⟨⟩
        unfold scanFacet at hfacet
        split at hfacet
        · split at hfacet
          · next hnat =>
            cases hfacet
            obtain ⟨_, _, hle, _⟩ := scanNat?_eq_some_iff.mp hnat
            exact hle
          · cases hfacet
        · cases hfacet
    · cases h

theorem readId?_bounds {token : String} (h : readId? token = some n) : 0 < n ∧ n ≤ maxId := by
  obtain ⟨hcardinal, hpos⟩ := Option.filter_eq_some_iff.mp h
  unfold readCardinal? at hcardinal
  split at hcardinal
  · split at hcardinal
    · next m hbounds =>
      cases hcardinal
      exact ⟨of_decide_eq_true hpos, by omega⟩
    · cases hcardinal
  · cases hcardinal

/-- A facet is scanned from a point and its numeral, and there is none at the end of a word. -/
theorem scanFacet_described {facet : Option Nat} (h : ∀ n ∈ facet, n ≤ maxFacet) :
    scanFacet ((facet.map fun n => '.' :: Nat.toDigits 10 n).getD []) = (facet, []) := by
  cases facet with
  | none => rfl
  | some n =>
    have hscan : scanNat? maxFacet (Nat.toDigits 10 n) = some (n, []) :=
      (numeral_toDigits n).scanNat?_eq (h n rfl)
    change scanFacet ('.' :: Nat.toDigits 10 n) = _
    rw [scanFacet, hscan]

/-- A surface term is read back from its description. -/
theorem readSurfaceRef?_describe (h : ref.InRange) : readSurfaceRef? ref.describe.toList = some ref := by
  obtain ⟨id, sense, facet⟩ := ref
  have hnumeral := numeral_toDigits id
  generalize hrest : (facet.map fun n => '.' :: Nat.toDigits 10 n).getD [] = rest
  have hfacet : scanFacet rest = (facet, []) := hrest ▸ scanFacet_described h.facet_le
  have hstop : ∀ c ∈ rest.head?, c.isDigit = false := by
    subst hrest
    cases facet with
    | none => simp
    | some n => rintro _ ⟨⟩; rfl
  have hscan : scanNat? maxId (Nat.toDigits 10 id ++ rest) = some (id, rest) :=
    hnumeral.scanNat?_append h.id_le hstop
  have hid : id ≠ 0 := Nat.ne_of_gt h.pos
  rw [SurfaceRef.toList_describe, hrest, List.append_assoc]
  cases sense with
  | negative => simp [readSurfaceRef?, scanSign, hscan, hfacet, hid]
  | positive => simp [readSurfaceRef?, hnumeral.scanSign_append, hscan, hfacet, hid]

def isTermChar (c : Char) : Bool :=
  c == '-' || c == '.' || c == '#' || c.isDigit

theorem isTerm_of_isTermChar {word : List Char} (hne : word ≠ [])
    (h : ∀ c ∈ word, isTermChar c = true) : IsTerm word := by
  have hplain {c : Char} (hc : isTermChar c = true) :
      Text.isBlank c = false ∧ isRegionOperator c = false := by
    simp only [isTermChar, Bool.or_eq_true, beq_iff_eq] at hc
    rcases hc with ((rfl | rfl) | rfl) | hdigit
    · decide
    · decide
    · decide
    · refine ⟨Text.not_isBlank_of_isDigit hdigit, ?_⟩
      simp only [isRegionOperator, Bool.or_eq_false_iff, beq_eq_false_iff_ne]
      refine ⟨⟨?_, ?_⟩, ?_⟩ <;> rintro rfl <;> exact absurd hdigit (by decide)
  exact ⟨⟨hne, fun c hc => (hplain (h c hc)).1⟩, fun c hc => (hplain (h c hc)).2⟩

theorem isTermChar_of_mem_toDigits {c : Char} (h : c ∈ Nat.toDigits 10 n) : isTermChar c = true := by
  rw [isTermChar, (numeral_toDigits n).digits c h, Bool.or_true]

theorem isTerm_describe (ref : SurfaceRef) : IsTerm ref.describe.toList := by
  apply isTerm_of_isTermChar
  · simp [SurfaceRef.toList_describe, Nat.toDigits_ne_nil]
  · rw [SurfaceRef.toList_describe, List.forall_mem_append, List.forall_mem_append]
    refine ⟨⟨?_, fun c => isTermChar_of_mem_toDigits⟩, ?_⟩
    · split <;> simp [isTermChar]
    · cases ref.facet with
      | none => simp
      | some n => exact List.forall_mem_cons.mpr ⟨rfl, fun c => isTermChar_of_mem_toDigits⟩

theorem isTerm_complement (n : Nat) : IsTerm ('#' :: Nat.toDigits 10 n) :=
  isTerm_of_isTermChar (List.cons_ne_nil _ _)
    (List.forall_mem_cons.mpr ⟨rfl, fun _ => isTermChar_of_mem_toDigits⟩)

theorem readRegionTerm_describe (h : ref.InRange) :
    readRegionTerm ref.describe.toList = .ok (.surface ref) := by
  have hread := readSurfaceRef?_describe h
  have hsign (digits : List Char) : readSurfaceRef? ('#' :: digits) = none := rfl
  unfold readRegionTerm
  split
  · next heq => rw [heq, hsign] at hread; cases hread
  · next heq => rw [heq, hsign] at hread; cases hread
  · rw [hread]

theorem readRegionTerm_complement (hpos : 0 < n) (hn : n ≤ maxId) :
    readRegionTerm ('#' :: Nat.toDigits 10 n) = .ok (.complement n) := by
  have hread : readId? (String.ofList (Nat.toDigits 10 n)) = some n :=
    (numeral_toDigits n).readId?_eq hpos hn
  obtain ⟨digit, digits, hdigits⟩ := List.exists_cons_of_ne_nil (Nat.toDigits_ne_nil (n := n) (b := 10))
  rw [hdigits] at hread ⊢
  rw [readRegionTerm, hread]
  exact List.cons_ne_nil digit digits

theorem mapM_map_eq_ok {α β γ : Type} {f : β → Except CardFault γ} {g : α → β} {h : α → γ}
    {xs : List α} (hf : ∀ x ∈ xs, f (g x) = .ok (h x)) : (xs.map g).mapM f = .ok (xs.map h) := by
  induction xs with
  | nil => rfl
  | cons x xs ih =>
    rw [List.map_cons, List.mapM_cons, hf x List.mem_cons_self,
      ih fun y hy => hf y (List.mem_cons_of_mem x hy)]
    rfl

def writtenTerms (r : Region) : List RegionTerm :=
  r.surfaces.map RegionTerm.surface ++ r.complements.map RegionTerm.complement

theorem regionWords_termsText (r : Region) : regionWords r.termsText.toList =
    r.surfaces.map (fun ref => ref.describe.toList) ++
      r.complements.map fun n => '#' :: Nat.toDigits 10 n := by
  have hparts : (r.surfaces.map SurfaceRef.describe ++
      r.complements.map fun n => s!"#{n}").map String.toList =
      r.surfaces.map (fun ref => ref.describe.toList) ++
        r.complements.map fun n => '#' :: Nat.toDigits 10 n := by
    simp [toString, Function.comp_def]
  have hterm : ∀ part ∈ r.surfaces.map (fun ref => ref.describe.toList) ++
      r.complements.map (fun n => '#' :: Nat.toDigits 10 n), IsTerm part := by
    rw [List.forall_mem_append, List.forall_mem_map, List.forall_mem_map]
    exact ⟨fun ref _ => isTerm_describe ref, fun n _ => isTerm_complement n⟩
  rw [regionWords_eq_flatMap, Region.termsText, Text.joined, String.toList_intercalate, hparts]
  generalize r.surfaces.map (fun ref => ref.describe.toList) ++
    r.complements.map (fun n => '#' :: Nat.toDigits 10 n) = parts at hterm
  rw [show " ".toList = [' '] from rfl, Text.words_intercalate fun part hpart => (hterm part hpart).1]
  calc parts.flatMap regionWords
      = parts.flatMap fun part => [part] :=
        List.flatMap_congr fun part hpart => (hterm part hpart).regionWords_eq
    _ = parts := List.flatMap_singleton' parts

def RegionTerm.InRange : RegionTerm → Prop
  | surface ref => ref.InRange
  | complement n => 0 < n ∧ n ≤ maxId
  | complementSign => True

theorem inRange_of_readRegionTerm {word : List Char} {term : RegionTerm}
    (h : readRegionTerm word = .ok term) : term.InRange := by
  unfold readRegionTerm at h
  split at h
  · cases h
    trivial
  · split at h
    · next hread =>
      cases h
      exact readId?_bounds hread
    · cases h
  · split at h
    · next hread =>
      cases h
      exact inRange_of_readSurfaceRef? hread
    · cases h

theorem forall_of_mapM_eq_ok {α β : Type} {P : β → Prop} {f : α → Except CardFault β} {xs : List α}
    {ys : List β} (hf : ∀ x y, f x = .ok y → P y) (h : xs.mapM f = .ok ys) : ∀ y ∈ ys, P y := by
  induction xs generalizing ys with
  | nil =>
    cases h
    exact fun y hy => absurd hy List.not_mem_nil
  | cons x xs ih =>
    rw [List.mapM_cons] at h
    obtain ⟨y, hy, h⟩ := bind_eq_ok.mp h
    obtain ⟨rest, hrest, ⟨⟩⟩ := bind_eq_ok.mp h
    exact List.forall_mem_cons.mpr ⟨hf x y hy, ih hrest⟩

theorem inRange_of_readRegion (h : readRegion text = .ok r) :
    (∀ ref ∈ r.surfaces, ref.InRange) ∧ ∀ n ∈ r.complements, 0 < n ∧ n ≤ maxId := by
  obtain ⟨terms, hterms, rfl⟩ := readRegion_eq_ok_iff.mp h
  have hrange := forall_of_mapM_eq_ok (fun _ _ => inRange_of_readRegionTerm) hterms
  constructor
  · intro ref href
    obtain ⟨term, hterm, hsurface⟩ := List.mem_filterMap.mp href
    cases term with
    | surface _ => cases hsurface; exact hrange _ hterm
    | _ => cases hsurface
  · intro n hn
    obtain ⟨term, hterm, hcomplement⟩ := List.mem_filterMap.mp hn
    cases term with
    | complement _ => cases hcomplement; exact hrange _ hterm
    | _ => cases hcomplement

/-- The terms of a region written out mention what the region does. -/
theorem mentions_termsText (h : readRegion text = .ok r) :
    Mentions r.termsText.toList r.surfaces r.complements := by
  obtain ⟨hsurfaces, hcomplements⟩ := inRange_of_readRegion h
  refine mentions_iff.mpr ⟨writtenTerms r, ?_, ?_, ?_⟩
  · rw [regionWords_termsText]
    refine mapM_append_eq_ok_iff.mpr ⟨_, _, ?_, ?_, rfl⟩
    · exact mapM_map_eq_ok fun ref href => readRegionTerm_describe (hsurfaces ref href)
    · exact mapM_map_eq_ok fun n hn =>
        readRegionTerm_complement (hcomplements n hn).1 (hcomplements n hn).2
  · simp [writtenTerms, List.filterMap_append, List.filterMap_map, Function.comp_def,
      RegionTerm.surface?]
  · simp [writtenTerms, List.filterMap_append, List.filterMap_map, Function.comp_def,
      RegionTerm.complement?]

end Described

end Card

end TransportDeck
