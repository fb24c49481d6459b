import Mathlib.Data.List.Nodup
import TransportDeck.Proofs.Card.LetterCase
import TransportDeck.Proofs.Number.Numerals
import TransportDeck.Proofs.Text.Trimming

namespace TransportDeck

open Number

namespace Particle

variable {known more particles : List Particle} {text : String}

def listText (particles : List Particle) : String :=
  ",".intercalate (particles.map fun p => String.singleton p.designator)

theorem toList_listText (particles : List Particle) :
    (listText particles).toList = [','].intercalate (particles.map fun p => [p.designator]) := by
  rw [listText, String.toList_intercalate, List.map_map]
  simp [Function.comp_def]

theorem ofItem?_designator (p : Particle) : ofItem? [p.designator] = some p := by
  cases p <;> rfl

theorem designator_ne_comma (p : Particle) : p.designator ≠ ',' := by
  cases p <;> decide

theorem nodup_addNew (h : known.Nodup) : (addNew known more).Nodup := by
  induction more generalizing known with
  | nil => exact h
  | cons p more ih =>
    rw [addNew, List.foldl_cons]
    apply ih
    split
    · exact h
    · next hnew =>
      rw [List.contains_iff_mem] at hnew
      exact h.append (List.nodup_singleton p) (List.disjoint_singleton.mpr hnew)

theorem subset_addNew (known more : List Particle) : known ⊆ addNew known more := by
  induction more generalizing known with
  | nil => exact List.Subset.refl known
  | cons p more ih =>
    rw [addNew, List.foldl_cons]
    refine List.Subset.trans ?_ (ih _)
    split
    · exact List.Subset.refl known
    · exact List.subset_append_left known [p]

theorem addNew_of_nodup (h : (known ++ more).Nodup) : addNew known more = known ++ more := by
  induction more generalizing known with
  | nil => exact (List.append_nil known).symm
  | cons p more ih =>
    have hnew : p ∉ known := fun hp => (List.nodup_append.mp h).2.2 p hp p List.mem_cons_self rfl
    have hmore : (known ++ [p] ++ more).Nodup := by simpa using h
    rw [addNew, List.foldl_cons, if_neg (mt List.contains_iff_mem.mp hnew)]
    rw [← addNew, ih hmore, List.append_assoc, List.singleton_append]

/-- A list that can be read names at least one particle, and none of them twice. -/
theorem ne_nil_and_nodup_of_ofList? (h : ofList? text = some particles) :
    particles ≠ [] ∧ particles.Nodup := by
  obtain ⟨items, hitems, rfl⟩ := Option.map_eq_some_iff.mp h
  refine ⟨?_, nodup_addNew List.nodup_nil⟩
  obtain ⟨item, rest, hsplit⟩ :=
    List.exists_cons_of_ne_nil (List.splitOn_ne_nil (a := ',') text.toList)
  rw [hsplit, List.mapM_cons] at hitems
  obtain ⟨p, _, hitems⟩ := Option.bind_eq_some_iff.mp hitems
  obtain ⟨ps, _, ⟨⟩⟩ := Option.bind_eq_some_iff.mp hitems
  exact List.ne_nil_of_mem (subset_addNew [p] ps (List.mem_singleton_self p))

/-- Distinct particles are read back from their designators. -/
theorem ofList?_listText (hne : particles ≠ []) (hnodup : particles.Nodup) :
    ofList? (listText particles) = some particles := by
  have hsplit : (listText particles).toList.splitOn ',' = particles.map fun p => [p.designator] := by
    rw [toList_listText]
    apply List.splitOn_intercalate
    · intro item hitem
      obtain ⟨p, _, rfl⟩ := List.mem_map.mp hitem
      exact fun hcomma => designator_ne_comma p (List.mem_singleton.mp hcomma).symm
    · exact mt List.map_eq_nil_iff.mp hne
  have hread : (particles.map fun p => [p.designator]).mapM ofItem? = some particles := by
    have hitem : ofItem? ∘ (fun p => [p.designator]) = fun p => some p := funext ofItem?_designator
    rw [List.mapM_map, hitem]
    exact List.mapM_pure.trans (congrArg some (List.map_id' particles))
  have hadd : addNew [] particles = particles := @addNew_of_nodup [] particles hnodup
  rw [ofList?, hsplit, hread, Option.map_some, hadd]

end Particle

namespace Card

structure NameChar (c : Char) : Prop where
  not_blank : Text.isBlank c = false
  toLower_eq : c.toLower = c

theorem nameChar_designator (p : Particle) : NameChar p.designator := by
  cases p <;> exact ⟨by decide, by decide⟩

theorem lower_of_nameChar {cs : List Char} (h : ∀ c ∈ cs, NameChar c) : Text.lower cs = cs := by
  rw [Text.lower, List.map_congr_left (g := id) fun c hc => (h c hc).toLower_eq, List.map_id]

structure CardName.Parts (name : CardName) : Prop where
  marker : ∀ c ∈ name.marker, c = '*' ∨ c = '+'
  ne_nil : name.mnemonic.toList ≠ []
  letters : ∀ c ∈ name.mnemonic.toList, c.isAlpha = true
  lower : Text.lower name.mnemonic.toList = name.mnemonic.toList
  number : ∀ n ∈ name.number, n ≤ maxId

def CardName.text (name : CardName) : List Char :=
  name.marker.toList ++ (name.mnemonic.toList ++ ((name.number.map (Nat.toDigits 10)).getD [] ++
    (name.designators.map fun d => ':' :: d.toList).getD []))

section Parts

variable {name : CardName} {word : List Char}

theorem parts_of_readCardName? (h : readCardName? word = some name) : name.Parts := by
  have hmarker : ∀ c ∈ (scanMarker word).1, c = '*' ∨ c = '+' := by
    unfold scanMarker
    split <;> simp
  have hnumber (cs : List Char) : ∀ n ∈ (scanCardNumber cs).1, n ≤ maxId := by
    unfold scanCardNumber
    split
    · next hscan =>
      obtain ⟨_, _, hle, _⟩ := scanNat?_eq_some_iff.mp hscan
      rintro _ ⟨⟩
      exact hle
    · simp
  unfold readCardName? at h
  dsimp only at h
  split at h
  · cases h
  · next hempty =>
    obtain ⟨designators, _, rfl⟩ := Option.map_eq_some_iff.mp h
    refine ⟨hmarker, ?_, ?_, ?_, hnumber _⟩
    · simpa [Text.lower] using hempty
    · intro c hc
      rw [String.toList_ofList] at hc
      obtain ⟨c, hletter, rfl⟩ := List.mem_map.mp hc
      exact Text.isAlpha_toLower.trans (List.mem_takeWhile_imp hletter)
    · rw [String.toList_ofList, Text.lower_lower]

theorem CardName.Parts.scanMarker_text (h : name.Parts) (rest : List Char) :
    scanMarker (name.marker.toList ++ (name.mnemonic.toList ++ rest)) =
      (name.marker, name.mnemonic.toList ++ rest) := by
  obtain ⟨marker, mnemonic, number, designators⟩ := name
  cases marker with
  | some c => rcases h.marker c rfl with rfl | rfl <;> rfl
  | none =>
    obtain ⟨letter, letters, hletters⟩ := List.exists_cons_of_ne_nil h.ne_nil
    have halpha : letter.isAlpha = true := h.letters letter (hletters ▸ List.mem_cons_self)
    change scanMarker (mnemonic.toList ++ rest) = _
    rw [hletters]
    unfold scanMarker
    split
    · next heq => rw [(List.cons.inj heq).1] at halpha; exact absurd halpha (by decide)
    · next heq => rw [(List.cons.inj heq).1] at halpha; exact absurd halpha (by decide)
    · rfl

section Number

variable {number : Option Nat} {rest : List Char}

theorem scanCardNumber_append (hnumber : ∀ n ∈ number, n ≤ maxId)
    (hrest : ∀ c ∈ rest.head?, c.isDigit = false) :
    scanCardNumber ((number.map (Nat.toDigits 10)).getD [] ++ rest) = (number, rest) := by
  cases number with
  | none => simp [scanCardNumber, scanNat?_eq_none hrest]
  | some n => simp [scanCardNumber, (numeral_toDigits n).scanNat?_append (hnumber n rfl) hrest]

theorem not_isAlpha_number_append (number : Option Nat) (hrest : ∀ c ∈ rest.head?, c.isAlpha = false) :
    ∀ c ∈ ((number.map (Nat.toDigits 10)).getD [] ++ rest).head?, c.isAlpha = false := by
  cases number with
  | none => exact hrest
  | some n =>
    intro c hc
    have hdigit := (numeral_toDigits n).head?_append rest c hc
    rw [Bool.eq_false_iff]
    intro halpha
    rw [Text.not_isDigit_of_isAlpha halpha] at hdigit
    cases hdigit

end Number

/-- A name is read back from its parts. -/
theorem CardName.Parts.readCardName?_text (h : name.Parts)
    (hdesignators : ∀ d ∈ name.designators, Text.lower d.toList = d.toList) :
    readCardName? name.text = some name := by
  have hmarker := h.scanMarker_text
  obtain ⟨marker, mnemonic, number, designators⟩ := name
  generalize htail : (designators.map fun d => ':' :: d.toList).getD [] = tail
  have hcolon : ∀ c ∈ tail.head?, c = ':' := by
    subst htail
    cases designators <;> simp
  have hread : readDesignators? tail = some designators := by
    subst htail
    cases designators with
    | none => rfl
    | some d => simp [readDesignators?, hdesignators d rfl]
  have hscan := scanCardNumber_append h.number fun c hc => by rw [hcolon c hc]; rfl
  have hletters := @not_isAlpha_number_append tail number fun c hc => by rw [hcolon c hc]; rfl
  obtain ⟨htake, hdrop⟩ := takeWhile_dropWhile_append h.letters hletters
  have hnonempty : mnemonic.toList.isEmpty = false := List.isEmpty_eq_false_iff.mpr h.ne_nil
  have hlower : String.ofList (Text.lower mnemonic.toList) = mnemonic := by
    rw [h.lower, String.ofList_toList]
  rw [CardName.text, htail]
  simp only [readCardName?, hmarker, htake, hdrop, hscan, hnonempty, hread, hlower, Option.map_some,
    Bool.false_eq_true, if_false]

end Parts

end Card

def DataCard.nameParts (card : DataCard) : Card.CardName where
  marker := card.marker
  mnemonic := card.mnemonic
  number := card.number
  designators := if card.particles.isEmpty then none else some (Particle.listText card.particles)

theorem DataCard.toList_name (card : DataCard) : card.name.toList = card.nameParts.text := by
  obtain ⟨mnemonic, number, marker, particles, payload, span⟩ := card
  cases marker <;> cases number <;> cases particles <;>
    simp [name, nameParts, Card.CardName.text, Particle.listText, toString]

namespace Card

section Printed

variable {name : CardName} {card : DataCard}

/-- What can be found by reading a name is printed without blanks and in lower case. -/
theorem CardName.Parts.nameChar (h : name.Parts)
    (hdesignators : ∀ d ∈ name.designators, ∀ c ∈ d.toList, NameChar c) :
    ∀ c ∈ name.text, NameChar c := by
  obtain ⟨marker, mnemonic, number, designators⟩ := name
  simp only [CardName.text, List.forall_mem_append]
  refine ⟨?_, ?_, ?_, ?_⟩
  · intro c hc
    rcases h.marker c (Option.mem_toList.mp hc) with rfl | rfl <;> exact ⟨by decide, by decide⟩
  · intro c hc
    have hfixed : Text.lower mnemonic.toList = mnemonic.toList.map id := h.lower.trans (List.map_id _).symm
    exact ⟨Text.not_isBlank_of_isAlpha (h.letters c hc), List.map_inj_left.mp hfixed c hc⟩
  · intro c hc
    cases number with
    | none => cases hc
    | some n =>
      have hdigit := (numeral_toDigits n).digits c hc
      exact ⟨Text.not_isBlank_of_isDigit hdigit, Text.toLower_of_isDigit hdigit⟩
  · cases designators with
    | none => exact fun c hc => absurd hc List.not_mem_nil
    | some d => exact List.forall_mem_cons.mpr ⟨⟨by decide, by decide⟩, hdesignators d rfl⟩

theorem nameChar_listText (particles : List Particle) :
    ∀ c ∈ (Particle.listText particles).toList, NameChar c := by
  rw [Particle.toList_listText]
  induction particles with
  | nil => simp
  | cons p particles ih =>
    cases particles with
    | nil => simpa using nameChar_designator p
    | cons next particles =>
      have hcomma : NameChar ',' := ⟨by decide, by decide⟩
      simpa using ⟨nameChar_designator p, hcomma, by simpa using ih⟩

theorem nameChar_designators (card : DataCard) :
    ∀ d ∈ card.nameParts.designators, ∀ c ∈ d.toList, NameChar c := by
  unfold DataCard.nameParts
  split
  · simp
  · rintro _ ⟨⟩
    exact nameChar_listText card.particles

/-- The printed name has the parts of the card, and its designators name the particles again. -/
theorem readCardName?_name (h : card.nameParts.Parts) :
    readCardName? card.name.toList = some card.nameParts := by
  rw [card.toList_name]
  exact h.readCardName?_text fun d hd => lower_of_nameChar (nameChar_designators card d hd)

theorem nameParticles?_nameParts (h : nameParticles? name = some card.particles) :
    nameParticles? card.nameParts = some card.particles := by
  by_cases hempty : card.particles = []
  · simp [nameParticles?, DataCard.nameParts, hempty]
  · have hdesignators : ∃ d, Particle.ofList? d = some card.particles := by
      unfold nameParticles? at h
      split at h
      · exact ⟨_, h⟩
      · exact absurd (Option.some.inj h).symm hempty
    obtain ⟨d, hd⟩ := hdesignators
    have hnodup := (Particle.ne_nil_and_nodup_of_ofList? hd).2
    simp [nameParticles?, DataCard.nameParts, hempty, Particle.ofList?_listText hempty hnodup]

end Printed

section Head

variable {text word body rest : List Char}

theorem splitHead_of_trim (h : Text.trim text = word ++ body)
    (hword : ∀ c ∈ word, Text.isBlank c = false) (hbody : ∀ c ∈ body.head?, Text.isBlank c = true) :
    splitHead text = (word, Text.trim body) := by
  have hkeep : ∀ c ∈ word, (!Text.isBlank c) = true := fun c hc => by simp [hword c hc]
  have hstop : ∀ c ∈ body.head?, (!Text.isBlank c) = false := fun c hc => by simp [hbody c hc]
  obtain ⟨htake, hdrop⟩ := takeWhile_dropWhile_append hkeep hstop
  simp only [splitHead, h, htake, hdrop]

theorem trim_space_cons (rest : List Char) : Text.trim (' ' :: rest) = Text.trim rest := by
  have hspace : ∀ c ∈ [' '], Text.isBlank c = true := by simp; decide
  exact congrArg Text.trimEnd (Text.trimStart_append_of_blank hspace rest)

/-- A word and what follows it after a space are told apart again; where there is no word, nothing may
follow. -/
theorem splitHead_append_space (hword : ∀ c ∈ word, Text.isBlank c = false)
    (hrest : word = [] → Text.trim rest = []) :
    splitHead (word ++ ' ' :: rest) = (word, Text.trim rest) := by
  cases word with
  | nil =>
    have htrim : Text.trim (' ' :: rest) = [] := (trim_space_cons rest).trans (hrest rfl)
    rw [hrest rfl]
    exact splitHead_of_trim htrim hword (by simp)
  | cons c word =>
    have hstart : Text.trimStart (c :: word ++ ' ' :: rest) = c :: word ++ ' ' :: rest := by
      simp [Text.trimStart, hword c List.mem_cons_self]
    have htrim : Text.trim (c :: word ++ ' ' :: rest) = c :: word ++ Text.trimEnd (' ' :: rest) := by
      rw [Text.trim, hstart, Text.trimEnd_append_of_unbroken hword]
    have hblank : ∀ c ∈ (Text.trimEnd (' ' :: rest)).head?, Text.isBlank c = true := by
      intro c hc
      cases Text.head?_trimEnd _ c hc
      decide
    rw [splitHead_of_trim htrim hword hblank, Text.trim_trimEnd, trim_space_cons]

end Head

section Cards

variable {text word body more : List Char} {card : DataCard} {issues : List CardIssue}

/-- What a card is, given its word and its body: its name has parts and the content is read by them, or
it has none and is kept as it is. -/
theorem readData_cases (h : readData text = .ok (card, issues))
    (hsplit : splitHead text = (word, body)) :
    (readCardName? word = none ∧ issues = [] ∧
      card = { mnemonic := String.ofList (Text.lower word), payload := .tokens (Text.tokens [] body) }) ∨
    ∃ name particles payload faults, readCardName? word = some name ∧
      nameParticles? name = some particles ∧ readPayload name particles body = .ok (payload, faults) ∧
      card = { mnemonic := name.mnemonic, number := name.number, marker := name.marker, particles,
               payload } ∧
      issues = faults.map fun fault => ⟨some (String.ofList (Text.lower word)), fault⟩ := by
  simp only [readData, hsplit] at h
  split at h
  · next hname =>
    cases h
    exact .inl ⟨hname, rfl, rfl⟩
  · next name hname =>
    split at h
    · cases h
    · next particles hparticles =>
      obtain ⟨faults, hpayload, rfl⟩ := onCard_eq_ok.mp h
      obtain ⟨result, hread, hcard⟩ := map_eq_ok.mp hpayload
      cases hcard
      exact .inr ⟨name, particles, _, _, hname, hparticles, hread, rfl, rfl⟩

/-- A name that has no parts has none in lower case either. -/
theorem readData_name_of_unnamed (hname : readCardName? word = none)
    (hword : ∀ c ∈ word, Text.isBlank c = false) (hmore : word = [] → Text.trim more = [])
    (hcard : card = { mnemonic := String.ofList (Text.lower word),
                      payload := .tokens (Text.tokens [] (Text.trim more)) }) :
    readData (card.name.toList ++ ' ' :: more) = .ok (card, []) := by
  have hprinted : card.name.toList = Text.lower word := by
    rw [card.toList_name, hcard]
    simp [CardName.text, DataCard.nameParts]
  have hunbroken : ∀ c ∈ Text.lower word, Text.isBlank c = false :=
    List.forall_mem_map.mpr fun c hc => (Text.isBlank_toLower c).trans (hword c hc)
  have hhead := splitHead_append_space hunbroken fun hnil => hmore (List.map_eq_nil_iff.mp hnil)
  rw [hprinted]
  simp only [readData, hhead, readCardName?_lower, hname, Text.lower_lower, hcard]

/-- The content does not depend on how the number and the particles are written. -/
theorem readData_name_of_named {name : CardName} {particles : List Particle} {payload : Payload}
    {faults : List CardFault} (hname : readCardName? word = some name)
    (hparticles : nameParticles? name = some particles)
    (hpayload : readPayload name particles (Text.trim more) = .ok (payload, faults))
    (hcard : card = { mnemonic := name.mnemonic, number := name.number, marker := name.marker,
                      particles, payload }) :
    readData (card.name.toList ++ ' ' :: more) =
      .ok (card, faults.map fun fault => ⟨some card.name, fault⟩) := by
  have hfound := parts_of_readCardName? hname
  have hparts : card.nameParts.Parts := by
    subst hcard
    exact ⟨hfound.marker, hfound.ne_nil, hfound.letters, hfound.lower, hfound.number⟩
  have hagain : nameParticles? card.nameParts = some particles := by
    subst hcard
    exact nameParticles?_nameParts hparticles
  have hsame : readPayload card.nameParts particles (Text.trim more) = .ok (payload, faults) := by
    subst hcard
    exact hpayload
  have hchars : ∀ c ∈ card.name.toList, NameChar c := by
    rw [card.toList_name]
    exact hparts.nameChar (nameChar_designators card)
  have hne : card.name.toList ≠ [] := by
    rw [card.toList_name, CardName.text]
    simp [hparts.ne_nil]
  have hhead : splitHead (card.name.toList ++ ' ' :: more) = (card.name.toList, Text.trim more) :=
    splitHead_append_space (fun c hc => (hchars c hc).not_blank) fun hnil => absurd hnil hne
  simp only [readData, hhead, readCardName?_name hparts, hagain, hsame, lower_of_nameChar hchars,
    String.ofList_toList]
  rw [hcard]
  rfl

/-- A card is read back from its printed name and its body, with the same faults under that name. -/
theorem readData_name (hread : readData text = .ok (card, issues))
    (hsplit : Text.trim text = word ++ body) (hword : ∀ c ∈ word, Text.isBlank c = false)
    (hbody : ∀ c ∈ body.head?, Text.isBlank c = true) (hmore : Text.trim more = Text.trim body) :
    readData (card.name.toList ++ ' ' :: more) =
      .ok (card, issues.map fun issue => { issue with card := some card.name }) := by
  have hhead := splitHead_of_trim hsplit hword hbody
  rw [← hmore] at hhead
  rcases readData_cases hread hhead with
    ⟨hname, rfl, hcard⟩ | ⟨name, particles, payload, faults, hname, hparticles, hpayload, hcard, rfl⟩
  · refine readData_name_of_unnamed hname hword ?_ hcard
    rintro rfl
    have hempty : body = [] := by
      cases body with
      | nil => rfl
      | cons c rest =>
        have hfirst := Text.head?_trim text c (hsplit ▸ rfl)
        rw [hbody c rfl] at hfirst
        cases hfirst
    rw [hmore, hempty]
    rfl
  · rw [readData_name_of_named hname hparticles hpayload hcard, List.map_map]
    rfl

def nameAndIssues? (text : String) : Option (String × List CardIssue) :=
  (readData text.toList).toOption.map fun (card, issues) => (card.name, issues)

theorem exists_of_nameAndIssues? {text name : String} (h : nameAndIssues? text = some (name, issues)) :
    ∃ card, readData text.toList = .ok (card, issues) ∧ card.name = name := by
  obtain ⟨⟨card, issues⟩, hread, ⟨⟩⟩ := Option.map_eq_some_iff.mp h
  exact ⟨card, ok_of_toOption hread, rfl⟩

/-- A tally with a long number and a particle given twice, a material from which one isotope is left
out, and a number that is too large to be one. -/
theorem readData_name_of_cards :
    (∃ card, readData " *F0014:N,|,n  1 (2<3) T".toList = .ok (card, []) ∧ card.name = "*f14:n,|" ∧
      readData "*f14:n,| 1 (2<3) T".toList = .ok (card, [])) ∧
    (∃ card fault, readData "M01 1001 2 999016 1".toList = .ok (card, [⟨some "m01", fault⟩]) ∧
      readData "m1 1001 2 999016 1".toList = .ok (card, [⟨some "m1", fault⟩])) ∧
    ∃ card, readData "M4294967296 1001 1".toList = .ok (card, []) ∧ card.name = "m4294967296" ∧
      readData "m4294967296 1001 1".toList = .ok (card, []) := by
  have htally : nameAndIssues? " *F0014:N,|,n  1 (2<3) T" = some ("*f14:n,|", []) := by
    decide +kernel
  have hmaterial : nameAndIssues? "M01 1001 2 999016 1" =
      some ("m1", [⟨some "m01", .atomicNumber 999 "999016"⟩]) := by decide +kernel
  have hunnamed : nameAndIssues? "M4294967296 1001 1" = some ("m4294967296", []) := by decide +kernel
  obtain ⟨tally, htally, htallyName⟩ := exists_of_nameAndIssues? htally
  obtain ⟨material, hmaterial, hmaterialName⟩ := exists_of_nameAndIssues? hmaterial
  obtain ⟨unnamed, hunnamed, hunnamedName⟩ := exists_of_nameAndIssues? hunnamed
  have hunbroken {word : List Char} (h : word.any Text.isBlank = false) :
      ∀ c ∈ word, Text.isBlank c = false := by simpa using h
  have hspace (rest : List Char) : ∀ c ∈ (' ' :: rest).head?, Text.isBlank c = true := by
    rintro _ ⟨⟩
    rfl
  have htallyAgain := @readData_name _ "*F0014:N,|,n".toList (' ' :: " 1 (2<3) T".toList)
    "1 (2<3) T".toList tally [] htally (by decide +kernel) (hunbroken (by decide +kernel)) (hspace _)
    (by decide +kernel)
  have hmaterialAgain := @readData_name _ "M01".toList (' ' :: "1001 2 999016 1".toList)
    "1001 2 999016 1".toList material _ hmaterial (by decide +kernel) (hunbroken (by decide +kernel))
    (hspace _) (by decide +kernel)
  have hunnamedAgain := @readData_name _ "M4294967296".toList (' ' :: "1001 1".toList)
    "1001 1".toList unnamed [] hunnamed (by decide +kernel) (hunbroken (by decide +kernel)) (hspace _)
    (by decide +kernel)
  rw [htallyName] at htallyAgain
  rw [hmaterialName] at hmaterialAgain
  rw [hunnamedName] at hunnamedAgain
  exact ⟨⟨tally, htally, htallyName, htallyAgain⟩, ⟨material, _, hmaterial, hmaterialAgain⟩,
    ⟨unnamed, hunnamed, hunnamedName, hunnamedAgain⟩⟩

end Cards

end Card

end TransportDeck
