import TransportDeck.Card.Data
import TransportDeck.Card.Surface
import TransportDeck.Proofs.Text.LetterCase

namespace TransportDeck

def Payload.lower : Payload → Payload
  | tallyComment text => tallyComment (Text.lowered text)
  | payload => payload

def DataCard.lower (card : DataCard) : DataCard :=
  { card with payload := card.payload.lower }

namespace Text

theorem lower_digits (cs : List Char) :
    lower (cs.takeWhile Char.isDigit) = cs.takeWhile Char.isDigit := by
  rw [lower, List.map_congr_left (g := id), List.map_id]
  exact fun c hc => toLower_of_isDigit (List.mem_takeWhile_imp hc)

end Text

namespace Number

theorem scanNat?_lower (limit : Nat) (cs : List Char) :
    scanNat? limit (Text.lower cs) = (scanNat? limit cs).map (Prod.map id Text.lower) := by
  unfold scanNat? scanDigits?
  simp only [Text.takeWhile_lower Text.isDigit_toLower, Text.lower_digits,
    Text.dropWhile_lower Text.isDigit_toLower]
  cases (cs.takeWhile Char.isDigit).isEmpty with
  | true => rfl
  | false =>
    simp only [Bool.false_eq_true, if_false]
    split <;> rfl

end Number

namespace Card

open Number

theorem readCell_lower (text : List Char) : readCell (Text.lower text) = readCell text := by
  rw [readCell, Text.tokens_lower rfl, readCell]

theorem readSurface_lower (text : List Char) : readSurface (Text.lower text) = readSurface text := by
  rw [readSurface, Text.tokens_lower rfl, readSurface]

section Name

theorem scanMarker_lower (word : List Char) :
    scanMarker (Text.lower word) = Prod.map id Text.lower (scanMarker word) := by
  cases word with
  | nil => rfl
  | cons c rest =>
    by_cases hstar : c = '*'
    · subst hstar
      rfl
    · by_cases hplus : c = '+'
      · subst hplus
        rfl
      · have hstar' : c.toLower ≠ '*' := mt (Text.toLower_eq_iff (by decide)).mp hstar
        have hplus' : c.toLower ≠ '+' := mt (Text.toLower_eq_iff (by decide)).mp hplus
        change scanMarker (c.toLower :: Text.lower rest) = _
        unfold scanMarker
        split
        · next h => exact absurd (List.cons.inj h).1 hstar'
        · next h => exact absurd (List.cons.inj h).1 hplus'
        · split
          · next h => exact absurd (List.cons.inj h).1 hstar
          · next h => exact absurd (List.cons.inj h).1 hplus
          · rfl

theorem scanCardNumber_lower (cs : List Char) :
    scanCardNumber (Text.lower cs) = Prod.map id Text.lower (scanCardNumber cs) := by
  rw [scanCardNumber, scanNat?_lower, scanCardNumber]
  cases scanNat? maxId cs <;> rfl

theorem readDesignators?_lower (cs : List Char) :
    readDesignators? (Text.lower cs) = readDesignators? cs := by
  cases cs with
  | nil => rfl
  | cons c rest =>
    by_cases hcolon : c = ':'
    · subst hcolon
      change some (some (String.ofList (Text.lower (Text.lower rest)))) = _
      rw [Text.lower_lower]
      rfl
    · have hcolon' : c.toLower ≠ ':' := mt (Text.toLower_eq_iff (by decide)).mp hcolon
      change readDesignators? (c.toLower :: Text.lower rest) = _
      unfold readDesignators?
      split
      · next h => cases h
      · next h => exact absurd (List.cons.inj h).1 hcolon'
      · split
        · next h => cases h
        · next h => exact absurd (List.cons.inj h).1 hcolon
        · rfl

theorem readCardName?_lower (word : List Char) :
    readCardName? (Text.lower word) = readCardName? word := by
  have hletter (c : Char) : c.toLower.isAlpha = c.isAlpha := Text.isAlpha_toLower
  have hempty (letters : List Char) : (Text.lower letters).isEmpty = letters.isEmpty :=
    List.isEmpty_map
  unfold readCardName?
  rw [scanMarker_lower]
  obtain ⟨marker, rest⟩ := scanMarker word
  simp only [Prod.map_fst, Prod.map_snd, id_eq, Text.takeWhile_lower hletter,
    Text.dropWhile_lower hletter, scanCardNumber_lower, hempty, readDesignators?_lower,
    Text.lower_lower]

end Name

section Body

/-- What cannot be a tally comment is not changed. -/
theorem map_lower_complete {α : Type} {f : α → Payload} (h : ∀ a, (f a).lower = f a)
    (x : Except CardFault α) :
    (complete (f <$> x)).map (Prod.map Payload.lower id) = complete (f <$> x) := by
  cases x with
  | error fault => rfl
  | ok a =>
    change Except.ok ((f a).lower, []) = Except.ok (f a, [])
    rw [h a]

theorem bodyGroups_lower (body : List Char) : bodyGroups (Text.lower body) = bodyGroups body := by
  rw [bodyGroups, Text.tokens_lower rfl, bodyGroups]

theorem readTally_lower (number : Nat) (marker : Option Char) (particles : List Particle)
    (body : List Char) :
    readTally number marker particles (Text.lower body) = readTally number marker particles body := by
  have hbins (entity : Entity) :
      readTallyBins entity (Text.lower body) = readTallyBins entity body := by
    rw [readTallyBins, Text.tokens_lower rfl, readTallyBins]
  have hdetectors : readDetectors (Text.lower body) = readDetectors body := by
    rw [readDetectors, Text.tokens_lower rfl, readDetectors]
  rw [readTally, readTally]
  simp only [hbins, hdetectors]

theorem readPayload_lower (name : CardName) (particles : List Particle) (body : List Char) :
    readPayload name particles (Text.lower body) =
      (readPayload name particles body).map (Prod.map Payload.lower id) := by
  have htokens : Text.tokens [] (Text.lower body) = Text.tokens [] body :=
    Text.tokens_lower rfl body
  unfold readPayload
  simp only [htokens, bodyGroups_lower, readTally_lower]
  split
  · split
    · rfl
    · cases readMaterial _ (Text.tokens [] body) <;> rfl
  · rfl
  · exact (map_lower_complete (fun _ => rfl) _).symm
  · exact (map_lower_complete (fun _ => rfl) _).symm
  · exact (map_lower_complete (fun _ => rfl) _).symm
  · exact (map_lower_complete (fun _ => rfl) _).symm
  · rfl
  · exact (map_lower_complete (fun _ => rfl) _).symm
  · -- the comment is the only text that is kept as written
    rw [← Text.lowered_ofList]
    rfl
  all_goals first | rfl | exact (map_lower_complete (fun _ => rfl) _).symm

end Body

theorem splitHead_lower (text : List Char) :
    splitHead (Text.lower text) = Prod.map Text.lower Text.lower (splitHead text) := by
  have hnotBlank (c : Char) : (!Text.isBlank c.toLower) = !Text.isBlank c :=
    congrArg (! ·) (Text.isBlank_toLower c)
  simp only [splitHead, Text.trim_lower,
    Text.takeWhile_lower (p := fun c => !Text.isBlank c) hnotBlank,
    Text.dropWhile_lower (p := fun c => !Text.isBlank c) hnotBlank, Prod.map_apply]

theorem onCard_map {α β : Type} (card : String) (f : α → β)
    (x : Except CardFault (α × List CardFault)) :
    onCard card (x.map (Prod.map f id)) = (onCard card x).map (Prod.map f id) := by
  cases x <;> rfl

/-- A data card in lower case is the same record with its comment in lower case. -/
theorem readData_lower (text : List Char) :
    readData (Text.lower text) = (readData text).map (Prod.map DataCard.lower id) := by
  unfold readData
  rw [splitHead_lower]
  obtain ⟨word, body⟩ := splitHead text
  have htokens : Text.tokens [] (Text.lower body) = Text.tokens [] body :=
    Text.tokens_lower rfl body
  simp only [Prod.map_apply, Text.lower_lower, readCardName?_lower, htokens, readPayload_lower]
  cases readCardName? word with
  | none => rfl
  | some name =>
    dsimp only
    cases nameParticles? name with
    | none => rfl
    | some particles =>
      dsimp only
      rw [← onCard_map]
      cases readPayload name particles body <;> rfl

end Card

end TransportDeck
