import TransportDeck.Proofs.Card.CellLines

namespace TransportDeck.Card

open Number

section Surfaces

variable {ts : List String}

theorem oneLine_shape (shape : Shape) : OneLine shape.mnemonic := by
  cases shape <;> simp [OneLine, Shape.mnemonic]

theorem oneLine_mnemonic {token : String} (h : OneLine token) :
    OneLine (SurfaceKind.ofMnemonic token).mnemonic := by
  rw [SurfaceKind.ofMnemonic]
  split
  · exact oneLine_shape _
  · exact oneLine_ofList.mpr (Text.newline_not_mem_lower h)

theorem reads_readNumberedSurface (boundary : Boundary) (number : Nat) (h : LineTokens ts) :
    Reads (WithFaults fun _ => True) (readNumberedSurface boundary number ts) := by
  have hrest : LineTokens (splitTransform ts).2 := by
    unfold splitTransform
    split
    · exact h
    · split
      · exact h.tail
      · exact h
  unfold readNumberedSurface
  split
  · exact quotesLines_of_quoted_nil rfl
  case h_2 transform mnemonic values heq =>
    rw [heq] at hrest
    dsimp only
    split
    · exact quotesLines_of_quoted rfl (oneLine_mnemonic hrest.head)
    · refine ⟨trivial, quotesLines_failed (P := fun _ => True) fun r hr => ?_⟩
      obtain ⟨t, ht, rfl⟩ := List.mem_map.mp hr
      exact reads_readFloat (hrest.tail t ht)

theorem lines_readSurface (text : List Char) : (readSurface text).Lines fun _ => True := by
  have htokens : LineTokens (Text.tokens [] text) := lineTokens_tokens
  unfold readSurface
  split
  · have hquoted : CardFault.surfaceEmpty.quoted = [] := rfl
    exact CardFault.QuotesLines.oneLine (quotesLines_of_quoted_nil hquoted)
  case h_2 first rest heq =>
    rw [heq] at htokens
    split
    · exact oneLine_issue (by simp [OneLine]) (quotesLines_of_quoted rfl htokens.head)
    case h_2 boundary number hnumber =>
      have hcard : OneLine s!"surface {number}" := by simp [OneLine, toString]
      exact lines_onCard hcard (reads_readNumberedSurface boundary number htokens.tail)

end Surfaces

section Lists

variable {ts : List String}

theorem reads_expandFrom (h : LineTokens ts) (produced : Nat) (last : Option (Option Float)) :
    Reads (fun _ => True) (expandFrom produced last ts) := by
  -- an interpolation takes two tokens at once, so the induction is on the number of tokens
  induction hsize : ts.length using Nat.strong_induction_on generalizing ts produced last with
  | _ size ih =>
    subst hsize
    cases ts with
    | nil => trivial
    | cons token rest =>
      have hquoted {fault : CardFault} (hfault : fault.quoted = [token]) : fault.QuotesLines :=
        quotesLines_of_quoted hfault h.head
      have hrest := fun produced last => ih rest.length (Nat.lt_succ_self _) h.tail produced last rfl
      rw [expandFrom]
      split
      · exact (hrest _ _).bind fun _ _ => trivial
      split
      · exact hquoted rfl
      split
      · exact hquoted rfl
      split
      · exact (hrest _ _).bind fun _ _ => trivial
      · exact (hrest _ _).bind fun _ _ => trivial
      · exact (hrest _ _).bind fun _ _ => trivial
      · split
        · exact hquoted rfl
        split
        · exact hquoted rfl
        split
        · exact hquoted rfl
        · exact (ih _ (Nat.lt_add_right 1 (Nat.lt_succ_self _)) h.tail.tail _ _ rfl).bind
            fun _ _ => trivial
      · exact hquoted rfl

theorem reads_expandNumbers (h : LineTokens ts) : Reads (fun _ => True) (expandNumbers ts) := by
  unfold expandNumbers
  refine (reads_expandFrom h 0 none).bind fun values _ => ?_
  split
  · trivial
  · exact quotesLines_of_quoted_nil rfl

def LineEntries (entries : List MaterialEntry) : Prop :=
  ∀ fault, .rejected fault ∈ entries → fault.QuotesLines

theorem lineEntries_cons_ofIsotope {token : String} {entries : List MaterialEntry}
    (htoken : OneLine token) (fraction : Float) (h : LineEntries entries) :
    LineEntries (.ofIsotope token fraction :: entries) := by
  intro fault hfault
  rcases List.mem_cons.mp hfault with hfault | hfault
  · rw [MaterialEntry.ofIsotope] at hfault
    split at hfault
    · cases hfault
      exact quotesLines_of_quoted rfl htoken
    · split at hfault
      · cases hfault
      · cases hfault
        exact quotesLines_of_quoted rfl htoken
  · exact h fault hfault

theorem reads_readMaterialEntries (h : LineTokens ts) :
    Reads LineEntries (readMaterialEntries ts) := by
  fun_induction readMaterialEntries ts with
  | case1 => exact fun fault hfault => absurd hfault List.not_mem_nil
  | case2 token | case3 token => exact quotesLines_of_quoted rfl h.head
  | case4 key second hsecond =>
    refine (reads_readFloat h.tail.head).bind fun fraction _ => ?_
    exact lineEntries_cons_ofIsotope h.head fraction fun _ hfault => absurd hfault List.not_mem_nil
  | case5 key third rest ih =>
    refine (ih h.tail.tail.tail).bind fun entries hentries fault hfault => ?_
    exact hentries fault ((List.mem_cons.mp hfault).resolve_left nofun)
  | case6 key second third rest hsecond ih =>
    refine (reads_readFloat h.tail.head).bind fun fraction _ => ?_
    exact (ih h.tail.tail).bind fun entries hentries => lineEntries_cons_ofIsotope h.head fraction hentries

theorem reads_readMaterial (number : Nat) (ts : List String) :
    Reads (WithFaults fun _ => True) (readMaterial number ts) := by
  unfold readMaterial
  refine (reads_readMaterialEntries lineTokens_splitTokens).bind fun entries hentries => ?_
  dsimp only
  split
  · exact quotesLines_of_quoted_nil rfl
  · refine ⟨trivial, fun fault hfault => ?_⟩
    obtain ⟨entry, hentry, hrejected⟩ := List.mem_filterMap.mp hfault
    cases entry with
    | rejected found =>
      cases hrejected
      exact hentries fault hentry
    | _ => cases hrejected

end Lists

section Tallies

variable {ts : List String}

theorem reads_readBins (entity : Entity) (p : BinPlace) (h : LineTokens ts) :
    Reads (fun _ => True) (readBins entity p ts) := by
  fun_induction readBins entity p ts with
  | case1 => trivial
  | case9 =>
    rename_i ih
    refine (reads_readId h.head).bind fun id _ => ?_
    exact (ih h.tail).bind fun bins _ => trivial
  | _ => rename_i ih; exact ih h.tail

theorem reads_readTallyBins (entity : Entity) (body : List Char) :
    Reads (fun _ => True) (readTallyBins entity body) := by
  unfold readTallyBins
  refine (reads_readBins entity {} lineTokens_tokens).bind fun bins _ => ?_
  split
  · exact quotesLines_of_quoted_nil rfl
  · trivial

theorem reads_readDetectors (body : List Char) : Reads (fun _ => True) (readDetectors body) := by
  have htokens : LineTokens ((Text.tokens [] body).filter (· != "nd")) :=
    lineTokens_tokens.subset List.filter_sublist.subset
  unfold readDetectors
  refine (reads_mapM fun t ht => reads_readFloat (htokens t ht)).bind fun values _ => ?_
  split
  · exact quotesLines_of_quoted_nil rfl
  · exact reads_orFault (quotesLines_of_quoted_nil rfl) fun _ _ => trivial

theorem reads_readTally (number : Nat) (marker : Option Char) (particles : List Particle)
    (body : List Char) : Reads (fun _ => True) (readTally number marker particles body) := by
  unfold readTally
  refine (reads_orFault (P := fun _ => True) (quotesLines_of_quoted_nil rfl)
    fun _ _ => trivial).bind fun kind _ => ?_
  dsimp only
  split
  · exact quotesLines_of_quoted_nil rfl
  · split
    · exact (reads_readDetectors body).bind fun points _ => trivial
    · exact (reads_readTallyBins kind.entity body).bind fun bins _ => trivial

end Tallies

section Payloads

variable {ts : List String}

theorem reads_readMode (h : LineTokens ts) : Reads (fun _ => True) (readMode ts) := by
  unfold readMode
  refine (reads_mapM (P := fun _ => True) fun t ht => ?_).bind fun lists _ => ?_
  · exact reads_orFault (quotesLines_of_quoted rfl (h t ht)) fun _ _ => trivial
  · dsimp only
    split
    · exact quotesLines_of_quoted_nil rfl
    · trivial

theorem reads_readHistories (h : LineTokens ts) : Reads (fun _ => True) (readHistories ts) := by
  cases ts with
  | nil => exact quotesLines_of_quoted_nil rfl
  | cons token rest =>
    refine (reads_readFloat h.head).bind fun x _ => ?_
    exact (reads_orFault (P := fun _ => True) (quotesLines_of_quoted rfl h.head)
      fun _ _ => trivial).bind fun n _ => trivial

theorem reads_readSourcePoints (h : LineTokens ts) :
    Reads (fun _ => True) (readSourcePoints ts) := by
  unfold readSourcePoints
  refine (reads_expandNumbers h).bind fun values _ => ?_
  split
  · exact quotesLines_of_quoted_nil rfl
  · exact reads_orFault (quotesLines_of_quoted_nil rfl) fun _ _ => trivial

theorem reads_readTransform (h : LineTokens ts) (number : Nat) (degrees : Bool) :
    Reads (fun _ => True) (readTransform number degrees ts) :=
  (reads_expandNumbers h).bind fun values _ => reads_checkedTransform number values

theorem reads_readCellImportances (h : LineTokens ts) (particles : List Particle) :
    Reads (fun _ => True) (readCellImportances particles ts) := by
  unfold readCellImportances
  split
  · exact quotesLines_of_quoted_nil rfl
  · refine (reads_expandNumbers h).bind fun values _ => ?_
    split
    · exact quotesLines_of_quoted_nil rfl
    · trivial

theorem reads_complete {payload : Except CardFault Payload} (h : Reads (fun _ => True) payload) :
    Reads (WithFaults fun _ => True) (complete payload) := by
  cases payload with
  | error fault => exact h
  | ok p => exact ⟨trivial, fun fault hfault => absurd hfault List.not_mem_nil⟩

theorem reads_readPayload {name : CardName} (hname : OneLine name.mnemonic)
    (particles : List Particle) (body : List Char) :
    Reads (WithFaults fun _ => True) (readPayload name particles body) := by
  have htokens : LineTokens (Text.tokens [] body) := lineTokens_tokens
  have hdone {α : Type} {x : Except CardFault α} (h : Reads (fun _ => True) x) {f : α → Payload} :
      Reads (WithFaults fun _ => True) (complete (f <$> x)) :=
    reads_complete (h.map fun _ _ => trivial)
  have hvalues := reads_expandFrom htokens 0 none
  have hnumbers := reads_expandNumbers htokens
  unfold readPayload
  dsimp only
  split
  · split
    · exact reads_complete trivial
    · exact (reads_readMaterial _ _).map fun m hm => ⟨trivial, hm.2⟩
  · exact reads_complete trivial
  · exact hdone (reads_readMode htokens)
  · exact hdone (reads_readHistories htokens)
  · exact hdone hvalues
  · exact hdone (reads_readSourcePoints htokens)
  · exact reads_complete trivial
  · exact hdone (reads_readTally _ _ particles body)
  · exact reads_complete trivial
  · exact hdone hnumbers
  · exact hdone hnumbers
  · exact hdone (reads_readTransform htokens _ _)
  · exact hdone (reads_readCellImportances htokens particles)
  · exact hdone hvalues
  · exact hdone hvalues
  · exact hdone hvalues
  · exact hdone hnumbers
  · exact hdone hvalues
  · exact reads_complete trivial
  · exact reads_complete trivial
  · exact quotesLines_of_quoted rfl hname
  · exact quotesLines_of_quoted rfl hname
  · exact quotesLines_of_quoted rfl hname
  · exact reads_complete trivial

end Payloads

section DataCards

structure LineName (card : DataCard) : Prop where
  mnemonic : OneLine card.mnemonic
  marker : ∀ c ∈ card.marker, c ≠ '\n'

theorem LineName.oneLine {card : DataCard} (h : LineName card) : OneLine card.name := by
  have hmarker : OneLine ((card.marker.map String.singleton).getD "") := by
    cases hc : card.marker with
    | none => simp [OneLine]
    | some c =>
      have hne := h.marker c hc
      simp [OneLine, Ne.symm hne]
  have hnumber : OneLine ((card.number.map toString).getD "") := by
    cases card.number with
    | none => simp [OneLine]
    | some n => simp [OneLine, toString]
  have hparticles : OneLine (if card.particles.isEmpty then "" else
      ":" ++ ",".intercalate (card.particles.map fun p => String.singleton p.designator)) := by
    split
    · simp [OneLine]
    · refine oneLine_append.mpr ⟨by simp [OneLine], oneLine_intercalate (by simp [OneLine]) ?_⟩
      intro s hs
      obtain ⟨p, -, rfl⟩ := List.mem_map.mp hs
      cases p <;> simp [OneLine, Particle.designator]
  have hname := oneLine_append.mpr ⟨hmarker, h.mnemonic⟩
  exact oneLine_append.mpr ⟨oneLine_append.mpr ⟨hname, hnumber⟩, hparticles⟩

theorem newline_not_mem_scanMarker (word : List Char) : ∀ c ∈ (scanMarker word).1, c ≠ '\n' := by
  unfold scanMarker
  split <;> simp

/-- The mnemonic consists of letters, and a marker is a star or a plus sign. -/
theorem lineName_of_readCardName? {word : List Char} {name : CardName}
    (h : readCardName? word = some name) :
    OneLine name.mnemonic ∧ ∀ c ∈ name.marker, c ≠ '\n' := by
  have hletters : '\n' ∉ (scanMarker word).2.takeWhile Char.isAlpha :=
    fun hmem => absurd (List.mem_takeWhile_imp hmem) (by decide)
  unfold readCardName? at h
  dsimp only at h
  split at h
  · cases h
  · obtain ⟨designators, -, rfl⟩ := Option.map_eq_some_iff.mp h
    exact ⟨oneLine_ofList.mpr (Text.newline_not_mem_lower hletters),
      newline_not_mem_scanMarker word⟩

theorem newline_not_mem_splitHead (text : List Char) : '\n' ∉ (splitHead text).1 := by
  apply Text.newline_not_mem_of_not_blank
  intro c hc
  simpa using List.mem_takeWhile_imp hc

theorem lines_readData (text : List Char) : (readData text).Lines LineName := by
  have hword := newline_not_mem_splitHead text
  have hhead : OneLine (String.ofList (Text.lower (splitHead text).1)) :=
    oneLine_ofList.mpr (Text.newline_not_mem_lower hword)
  unfold readData
  dsimp only
  split
  · exact ⟨⟨hhead, fun _ h => absurd h (Option.not_mem_none _)⟩,
      fun _ h => absurd h List.not_mem_nil⟩
  case h_2 name hname =>
    obtain ⟨hmnemonic, hmarker⟩ := lineName_of_readCardName? hname
    split
    · exact CardFault.QuotesLines.oneLine (quotesLines_of_quoted rfl hhead)
    · apply lines_onCard hhead
      exact (reads_readPayload hmnemonic _ _).map fun p hp => ⟨⟨hmnemonic, hmarker⟩, hp.2⟩

end DataCards

end TransportDeck.Card
