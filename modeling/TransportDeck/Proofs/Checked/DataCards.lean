import TransportDeck.Card.Data
import TransportDeck.Proofs.Checked.Numbers
import TransportDeck.Proofs.Checked.Tokens

namespace TransportDeck.Checked

open Number

variable {α : Type}

def groupsOf (n : Nat) (xs : List α) : List (List α) :=
  if 0 < n ∧ n ≤ xs.length then xs.take n :: groupsOf n (xs.drop n) else []
termination_by xs.length
decreasing_by
  rw [List.length_drop]
  omega

def materialTurn (ts : List String) : List Card.MaterialEntry × Nat →
    ExceptT CardFault Option (List Card.MaterialEntry ⊕ List Card.MaterialEntry × Nat)
  | (entries, i) => do
    if i < ts.length then
      let second := ts[← step (add? i 1)]?
      if second = some "=" then
        let value := ts[← step (add? i 2)]?
        let key ← step (item? ts i)
        let value ← sound (orFault (.optionValue key) value)
        return .inr (entries ++ [.option key value], ← step (add? i 3))
      else
        let key ← step (item? ts i)
        let fraction ← sound (orFault (.fractionMissing key) second >>= Card.readFloat)
        return .inr (entries ++ [.ofIsotope key fraction], ← step (add? i 2))
    else return .inl entries

noncomputable def readMaterialEntries (ts : List String) (entries : List Card.MaterialEntry)
    (i : Nat) : ExceptT CardFault Option (List Card.MaterialEntry) :=
  loopOr (materialTurn ts) (entries, i)

noncomputable def readMaterial (number : Nat) (ts : List String) :
    ExceptT CardFault Option (Material × List CardFault) := do
  let entries ← readMaterialEntries (← step (splitTokens ['='] ts)) [] 0
  let components := entries.filterMap Card.MaterialEntry.component?
  let faults := entries.filterMap Card.MaterialEntry.rejected?
  if components.isEmpty && faults.isEmpty then throw .materialEmpty
  else
    return ({ number, components, options := entries.filterMap Card.MaterialEntry.option? }, faults)

def readSourcePoints (ts : List String) : ExceptT CardFault Option (List Vec3) := do
  let values ← expandNumbers ts
  if values.isEmpty || values.length % 3 ≠ 0 then throw (.sourcePoints values.length)
  else step ((groupsOf 3 values).mapM point?)

def readTransform (number : Nat) (degrees : Bool) (ts : List String) :
    ExceptT CardFault Option Transform := do
  checkedTransform number (← expandNumbers ts) degrees

def readCellImportances (particles : List Particle) (ts : List String) :
    ExceptT CardFault Option (List Float) := do
  if particles.isEmpty then throw .importanceParticle
  else
    let values ← expandNumbers ts
    match values.find? (· < 0) with
    | some value => throw (.negativeImportance value)
    | none => return values

def readBins (entity : Entity) (p : Card.BinPlace) :
    List String → ExceptT CardFault Option (List TallyRef)
  | [] => return []
  | token :: rest =>
    if token = "[" then readBins entity { p with bracketed := true } rest
    else if token = "]" then readBins entity { p with bracketed := false } rest
    else if p.bracketed then readBins entity p rest
    else if token = "(" then do
      let depth ← step (add? p.depth 1)
      readBins entity { p with depth } rest
    else if token = ")" then readBins entity p.close rest
    else if token = "<" then do
      let level ← step (add? p.level 1)
      readBins entity { p with level } rest
    else if Card.isPlainBin token then readBins entity p rest
    else do
      let id ← sound (Card.readId token)
      let bins ← readBins entity p rest
      return ⟨Card.levelEntity entity p.level, id⟩ :: bins

def readTallyBins (entity : Entity) (body : List Char) :
    ExceptT CardFault Option (List TallyRef) := do
  let bins ← readBins entity {} (← step (tokens ['(', ')', '<', '[', ']'] body))
  if bins.isEmpty then throw .tallyEmpty
  else return bins

def detector? (values : List Float) : Option Detector := do
  return ⟨← item? values 0, ← item? values 1, ← item? values 2, ← item? values 3⟩

def readDetectors (body : List Char) : ExceptT CardFault Option (List Detector) := do
  let values ← sound (((Text.tokens [] body).filter (· != "nd")).mapM Card.readFloat)
  if values.isEmpty || values.length % 4 ≠ 0 then throw (.detectorPoints values.length)
  else step ((groupsOf 4 values).mapM detector?)

def readTally (number : Nat) (marker : Option Char) (particles : List Particle)
    (body : List Char) : ExceptT CardFault Option Tally := do
  let kind ← sound (orFault (.tallyType (number % 10)) (TallyKind.ofNumber? number))
  if particles.isEmpty then throw .tallyParticle
  else
    let points ← if kind = .detector then readDetectors body else pure []
    let bins ← if kind = .detector then pure [] else readTallyBins kind.entity body
    return { number, kind, modifier := Card.modifierOf marker, particles, bins, points }

def bodyGroups (body : List Char) : Option KeywordGroups := do
  return Card.keywordGroups (← tokens ['='] body)

def complete (payload : ExceptT CardFault Option Payload) :
    ExceptT CardFault Option (Payload × List CardFault) := do
  return (← payload, [])

noncomputable def readPayload (name : Card.CardName) (particles : List Particle) (body : List Char) :
    ExceptT CardFault Option (Payload × List CardFault) :=
  let ts := Text.tokens [] body
  match name.mnemonic, name.number with
  | "m", some n => do
    if n = 0 then return (.tokens ts, [])
    else
      let (m, faults) ← readMaterial n ts
      return (.material m, faults)
  | "kcode", _ => complete (.criticality <$> expandValues ts)
  | "ksrc", _ => complete (.sourcePoints <$> readSourcePoints ts)
  | "sdef", _ => complete (.source <$> step (bodyGroups body))
  | "f", some n => complete (.tally <$> readTally n name.marker particles body)
  | "e", _ => complete (.energyBins <$> expandNumbers ts)
  | "t", _ => complete (.timeBins <$> expandNumbers ts)
  | "tr", some n => complete (.transform <$> readTransform n (name.marker = some '*') ts)
  | "imp", _ => complete (.importance <$> readCellImportances particles ts)
  | "wwn", _ | "wwe", _ | "wwp", _ => complete (.weightWindow <$> expandValues ts)
  | "dxt", _ => complete (.detectorSpheres <$> expandNumbers ts)
  | "cut", _ => complete (.cutoff <$> expandValues ts)
  | "burn", _ => complete (.burn <$> step (bodyGroups body))
  | "fmesh", _ => complete (.meshTally <$> step (bodyGroups body))
  | _, _ => sound (Card.readPayload name particles body)

noncomputable def readData (text : List Char) : Option (CardResult DataCard) := do
  let (word, body) := Card.splitHead text
  let head := String.ofList (Text.lower word)
  match Card.readCardName? word with
  | none => return .ok ({ mnemonic := head, payload := .tokens (Text.tokens [] body) }, [])
  | some name =>
    match Card.nameParticles? name with
    | none => return .error ⟨none, .cardParticle head⟩
    | some particles =>
      let payload ← (readPayload name particles body).run
      return onCard head <| payload.map fun (payload, faults) =>
        ({ mnemonic := name.mnemonic, number := name.number, marker := name.marker, particles,
           payload }, faults)

section Materials

variable {ts : List String} {entries : List Card.MaterialEntry} {i : Nat}

theorem readMaterialEntries_turn (ts : List String) (entries : List Card.MaterialEntry) (i : Nat) :
    readMaterialEntries ts entries i = materialTurn ts (entries, i) >>=
      Sum.elim pure fun s => readMaterialEntries ts s.1 s.2 :=
  loopOr_eq _ _

theorem readMaterialEntries_end (h : ts.drop i = []) :
    readMaterialEntries ts entries i = pure entries := by
  rw [readMaterialEntries_turn, materialTurn, if_neg (Nat.not_lt.mpr (le_length_of_drop_nil h))]
  rfl

/-- Places up to three after one inside a list can be counted. -/
theorem add?_place {k : Nat} (hts : ts.length < lengthLimit) (hi : i < ts.length) (hk : k ≤ 3) :
    add? i k = some (i + k) :=
  add?_of_lt (Nat.lt_trans hi hts) (Nat.lt_of_le_of_lt hk (by decide))

theorem readMaterialEntries_isotope (hts : ts.length < lengthLimit) {key second : String}
    {rest : List String} (h : ts.drop i = key :: second :: rest) (hsecond : second ≠ "=") :
    readMaterialEntries ts entries i = sound (Card.readFloat second) >>= fun fraction =>
      readMaterialEntries ts (entries ++ [.ofIsotope key fraction]) (i + 2) := by
  obtain ⟨hlt, hkey, hafter⟩ := item?_of_drop h
  obtain ⟨_, hitem, _⟩ := item?_of_drop hafter
  have hget : ts[i + 1]? = some second := hitem
  have hneq : (some second : Option String) ≠ some "=" := fun heq => hsecond (Option.some.inj heq)
  rw [readMaterialEntries_turn, materialTurn, if_pos hlt, add?_place hts hlt (by omega), step_some,
    pure_bind, hget, if_neg hneq, hkey, step_some, pure_bind, add?_place hts hlt (by omega),
    bind_assoc]
  rfl

theorem readMaterialEntries_option (hts : ts.length < lengthLimit) {key value : String}
    {rest : List String} (h : ts.drop i = key :: "=" :: value :: rest) :
    readMaterialEntries ts entries i =
      readMaterialEntries ts (entries ++ [.option key value]) (i + 3) := by
  obtain ⟨hlt, hkey, hafter⟩ := item?_of_drop h
  obtain ⟨_, hsecond, hlast⟩ := item?_of_drop hafter
  obtain ⟨_, hthird, _⟩ := item?_of_drop hlast
  have hget : ts[i + 1]? = some "=" := hsecond
  have hvalue : ts[i + 2]? = some value := hthird
  rw [readMaterialEntries_turn, materialTurn, if_pos hlt, add?_place hts hlt (by omega), step_some,
    pure_bind, hget, if_pos rfl, add?_place hts hlt (by omega), step_some, pure_bind, hvalue, hkey,
    step_some, pure_bind, add?_place hts hlt (by omega)]
  rfl

/-- The entries read one by one come after those that stand before them. -/
theorem readMaterialEntries_eq (hts : ts.length < lengthLimit) {rest : List String}
    (hrest : ts.drop i = rest) :
    readMaterialEntries ts entries i =
      (entries ++ ·) <$> sound (Card.readMaterialEntries rest) := by
  fun_induction Card.readMaterialEntries rest generalizing i entries with
  | case1 =>
    rw [readMaterialEntries_end hrest, sound_ok, map_pure, List.append_nil]
  | case2 token =>
    obtain ⟨hlt, hkey, hafter⟩ := item?_of_drop hrest
    have hsecond : ts[i + 1]? = none := List.getElem?_eq_none (le_length_of_drop_nil hafter)
    rw [readMaterialEntries_turn, materialTurn, if_pos hlt, add?_place hts hlt (by omega), step_some,
      pure_bind, hsecond, hkey]
    rfl
  | case3 key =>
    obtain ⟨hlt, hkey, hafter⟩ := item?_of_drop hrest
    obtain ⟨_, hsecond, hend⟩ := item?_of_drop hafter
    have hget : ts[i + 1]? = some "=" := hsecond
    have hthird : ts[i + 2]? = none := List.getElem?_eq_none (le_length_of_drop_nil hend)
    rw [readMaterialEntries_turn, materialTurn, if_pos hlt, add?_place hts hlt (by omega), step_some,
      pure_bind, hget, if_pos rfl, add?_place hts hlt (by omega), step_some, pure_bind, hthird, hkey]
    rfl
  | case4 key second hsecond =>
    have hend : ts.drop (i + 2) = [] := by rw [← List.drop_drop, hrest]; rfl
    simp [readMaterialEntries_isotope hts hrest hsecond, readMaterialEntries_end hend]
  | case5 key third rest ih =>
    have hnext : ts.drop (i + 3) = rest := by rw [← List.drop_drop, hrest]; rfl
    rw [readMaterialEntries_option hts hrest, ih hnext]
    simp
  | case6 key second third rest hsecond ih =>
    have hnext : ts.drop (i + 2) = third :: rest := by rw [← List.drop_drop, hrest]; rfl
    rw [readMaterialEntries_isotope hts hrest hsecond]
    simp [ih hnext]

theorem readMaterial_eq (number : Nat) {body : List Char} (h : Text.bytes body < lengthLimit) :
    readMaterial number (Text.tokens [] body) =
      sound (Card.readMaterial number (Text.tokens [] body)) := by
  have hsplit : splitTokens ['='] (Text.tokens [] body) =
      some (Text.splitTokens ['='] (Text.tokens [] body)) := splitTokens_tokens h
  have hlength : (Text.splitTokens ['='] (Text.tokens [] body)).length < lengthLimit := by
    have hcut := Text.length_splitTokens_le ['='] (Text.tokens [] body)
    have hbytes := (tokensFit_tokens [] h).bytes_lt
    omega
  have hentries : readMaterialEntries (Text.splitTokens ['='] (Text.tokens [] body)) [] 0 =
      sound (Card.readMaterialEntries (Text.splitTokens ['='] (Text.tokens [] body))) := by
    have hread : readMaterialEntries _ [] 0 = ([] ++ ·) <$> sound _ :=
      readMaterialEntries_eq hlength List.drop_zero
    simpa using hread
  rw [readMaterial, hsplit, step_some, pure_bind, hentries, Card.readMaterial]
  refine bind_sound fun entries => ?_
  dsimp only
  split <;> rfl

end Materials

section Groups

variable {β : Type} {n : Nat} {group? : List α → Option β} {read? : List α → Option (List β)}

/-- A reader that takes `n` items at a time reads the groups of `n` items, if no item is left over,
and has no result otherwise. -/
theorem read?_eq (hn : 0 < n) (hnil : read? [] = some [])
    (hgroup : ∀ xs ys, xs.length = n →
      ∃ b, group? xs = some b ∧ read? (xs ++ ys) = (read? ys).map (b :: ·))
    (hshort : ∀ xs, xs ≠ [] → xs.length < n → read? xs = none) (xs : List α) :
    read? xs = if xs.length % n = 0 then (groupsOf n xs).mapM group? else none := by
  fun_induction groupsOf n xs with
  | case1 xs hfull ih =>
    obtain ⟨b, hb, hread⟩ := hgroup (xs.take n) (xs.drop n) (List.length_take_of_le hfull.2)
    rw [List.take_append_drop] at hread
    have hlength : (xs.drop n).length % n = xs.length % n := by
      rw [List.length_drop, Nat.mod_eq_sub_mod hfull.2]
    rw [hread, ih, hlength, List.mapM_cons, hb]
    split
    · rw [Option.bind_eq_bind, Option.bind_some]
      cases (groupsOf n (xs.drop n)).mapM group? <;> rfl
    · rfl
  | case2 xs hfull =>
    have hlt : xs.length < n := by
      by_contra hle
      exact hfull ⟨hn, Nat.le_of_not_lt hle⟩
    by_cases hne : xs = []
    · subst hne
      rw [hnil, List.length_nil, Nat.zero_mod]
      rfl
    · have hpos : xs.length ≠ 0 := fun h => hne (List.length_eq_zero_iff.mp h)
      rw [hshort xs hne hlt, Nat.mod_eq_of_lt hlt, if_neg hpos]

/-- All groups can be read if each can. -/
theorem exists_mapM_groupsOf (hgroup : ∀ xs, xs.length = n → ∃ b, group? xs = some b)
    (xs : List α) : ∃ bs, (groupsOf n xs).mapM group? = some bs := by
  fun_induction groupsOf n xs with
  | case1 xs hfull ih =>
    obtain ⟨b, hb⟩ := hgroup (xs.take n) (List.length_take_of_le hfull.2)
    obtain ⟨bs, hbs⟩ := ih
    exact ⟨b :: bs, by rw [List.mapM_cons, hb, hbs]; rfl⟩
  | case2 xs hfull => exact ⟨[], rfl⟩

end Groups

section Points

theorem exists_point? : ∀ xs : List Float, xs.length = 3 → ∃ p, point? xs = some p
  | [x, y, z], _ => ⟨⟨x, y, z⟩, rfl⟩

theorem exists_detector? : ∀ xs : List Float, xs.length = 4 → ∃ d, detector? xs = some d
  | [x, y, z, radius], _ => ⟨⟨x, y, z, radius⟩, rfl⟩

theorem points?_eq (values : List Float) :
    Card.points? values =
      if values.length % 3 = 0 then (groupsOf 3 values).mapM point? else none := by
  refine @read?_eq Float Vec3 3 point? Card.points? (by decide) rfl ?_ ?_ values
  · intro xs ys hlength
    match xs, hlength with
    | [x, y, z], _ => exact ⟨⟨x, y, z⟩, rfl, rfl⟩
  · intro xs hne hlength
    match xs, hne, hlength with
    | [x], _, _ => rfl
    | [x, y], _, _ => rfl

theorem detectors?_eq (values : List Float) :
    Card.detectors? values =
      if values.length % 4 = 0 then (groupsOf 4 values).mapM detector? else none := by
  refine @read?_eq Float Detector 4 detector? Card.detectors? (by decide) rfl ?_ ?_ values
  · intro xs ys hlength
    match xs, hlength with
    | [x, y, z, radius], _ => exact ⟨⟨x, y, z, radius⟩, rfl, rfl⟩
  · intro xs hne hlength
    match xs, hne, hlength with
    | [x], _, _ => rfl
    | [x, y], _, _ => rfl
    | [x, y, z], _, _ => rfl

theorem readSourcePoints_eq (ts : List String) :
    readSourcePoints ts = sound (Card.readSourcePoints ts) := by
  rw [readSourcePoints, expandNumbers_eq, Card.readSourcePoints]
  refine bind_sound fun values => ?_
  obtain ⟨points, hpoints⟩ := exists_mapM_groupsOf exists_point? values
  rw [points?_eq, hpoints]
  cases values with
  | nil => rfl
  | cons x rest =>
    by_cases hthree : (rest.length + 1) % 3 = 0
    · simp [hthree, orFault]
    · simp [hthree, orFault]

theorem readDetectors_eq (body : List Char) :
    readDetectors body = sound (Card.readDetectors body) := by
  rw [readDetectors, Card.readDetectors]
  refine bind_sound fun values => ?_
  obtain ⟨detectors, hdetectors⟩ := exists_mapM_groupsOf exists_detector? values
  rw [detectors?_eq, hdetectors]
  cases values with
  | nil => rfl
  | cons x rest =>
    by_cases hfour : (rest.length + 1) % 4 = 0
    · simp [hfour, orFault]
    · simp [hfour, orFault]

end Points

section Tallies

/-- The parentheses and the levels together with the tokens to come are always few enough to count
on. -/
theorem readBins_eq (entity : Entity) {p : Card.BinPlace} {ts : List String}
    (hdepth : p.depth + ts.length < lengthLimit) (hlevel : p.level + ts.length < lengthLimit) :
    readBins entity p ts = sound (Card.readBins entity p ts) := by
  have hkeep {n : Nat} {token : String} {rest : List String}
      (h : n + (token :: rest).length < lengthLimit) : n + rest.length < lengthLimit :=
    Nat.lt_of_succ_lt h
  have hnext {n : Nat} {token : String} {rest : List String}
      (h : n + (token :: rest).length < lengthLimit) : n + 1 + rest.length < lengthLimit := by
    rw [List.length_cons] at h
    omega
  have hadd {n : Nat} {token : String} {rest : List String}
      (h : n + (token :: rest).length < lengthLimit) : add? n 1 = some (n + 1) := by
    rw [List.length_cons] at h
    exact add?_of_lt (by omega) (by decide)
  fun_induction Card.readBins entity p ts with
  | case1 => rfl
  | case2 p rest ih => exact ih (hkeep hdepth) (hkeep hlevel)
  | case3 p rest _ ih => exact ih (hkeep hdepth) (hkeep hlevel)
  | case4 p token rest hopen hclose hbracketed ih =>
    rw [readBins, if_neg hopen, if_neg hclose, if_pos hbracketed]
    exact ih (hkeep hdepth) (hkeep hlevel)
  | case5 p rest hbracketed hopen hclose ih =>
    rw [readBins, if_neg hopen, if_neg hclose, if_neg hbracketed, if_pos rfl, hadd hdepth]
    exact ih (hnext hdepth) (hkeep hlevel)
  | case6 p rest hbracketed hopen hclose hdeeper ih =>
    rw [readBins, if_neg hopen, if_neg hclose, if_neg hbracketed, if_neg hdeeper, if_pos rfl]
    have hdepth' : p.close.depth + rest.length < lengthLimit := by
      have := hkeep hdepth
      change p.depth - 1 + rest.length < lengthLimit
      omega
    have hlevel' : p.close.level + rest.length < lengthLimit := by
      have := hkeep hlevel
      change (if p.depth ≤ 1 then 0 else p.level) + rest.length < lengthLimit
      split <;> omega
    exact ih hdepth' hlevel'
  | case7 p rest hbracketed hopen hclose hdeeper houter ih =>
    rw [readBins, if_neg hopen, if_neg hclose, if_neg hbracketed, if_neg hdeeper, if_neg houter,
      if_pos rfl, hadd hlevel]
    exact ih (hkeep hdepth) (hnext hlevel)
  | case8 p token rest hopen hclose hbracketed hdeeper houter hlower hplain ih =>
    rw [readBins, if_neg hopen, if_neg hclose, if_neg hbracketed, if_neg hdeeper, if_neg houter,
      if_neg hlower, if_pos hplain]
    exact ih (hkeep hdepth) (hkeep hlevel)
  | case9 p token rest hopen hclose hbracketed hdeeper houter hlower hplain ih =>
    rw [readBins, if_neg hopen, if_neg hclose, if_neg hbracketed, if_neg hdeeper, if_neg houter,
      if_neg hlower, if_neg hplain, ih (hkeep hdepth) (hkeep hlevel)]
    simp only [sound_bind, sound_pure]

theorem readTallyBins_eq (entity : Entity) {body : List Char} (h : Text.bytes body < lengthLimit) :
    readTallyBins entity body = sound (Card.readTallyBins entity body) := by
  have hlength (delimiters : List Char) : (Text.tokens delimiters body).length < lengthLimit :=
    (tokensFit_tokens delimiters h).length_lt
  have hbins : readBins entity {} (Text.tokens ['(', ')', '<', '[', ']'] body) = _ :=
    readBins_eq entity (by rw [Nat.zero_add]; exact hlength _) (by rw [Nat.zero_add]; exact hlength _)
  rw [readTallyBins, tokens_eq h, step_some, pure_bind, hbins, Card.readTallyBins]
  refine bind_sound fun bins => ?_
  split <;> rfl

theorem readTally_eq (number : Nat) (marker : Option Char) (particles : List Particle)
    {body : List Char} (h : Text.bytes body < lengthLimit) :
    readTally number marker particles body =
      sound (Card.readTally number marker particles body) := by
  rw [readTally, Card.readTally]
  refine bind_sound fun kind => ?_
  rw [readDetectors_eq, readTallyBins_eq kind.entity h]
  split
  · rfl
  · by_cases hkind : kind = .detector <;> simp [hkind]

end Tallies

section Payloads

variable {body : List Char}

theorem complete_sound (x : Except CardFault Payload) :
    complete (sound x) = sound (Card.complete x) := by
  cases x <;> rfl

theorem readTransform_eq (number : Nat) (degrees : Bool) (ts : List String) :
    readTransform number degrees ts = sound (Card.readTransform number degrees ts) := by
  rw [readTransform, expandNumbers_eq, Card.readTransform]
  exact bind_sound fun values => checkedTransform_eq number values degrees

theorem readCellImportances_eq (particles : List Particle) (ts : List String) :
    readCellImportances particles ts = sound (Card.readCellImportances particles ts) := by
  unfold readCellImportances Card.readCellImportances
  split
  · rfl
  · rw [expandNumbers_eq]
    refine bind_sound fun values => ?_
    cases values.find? (· < 0) <;> rfl

theorem bodyGroups_eq (h : Text.bytes body < lengthLimit) :
    bodyGroups body = some (Card.bodyGroups body) := by
  rw [bodyGroups, tokens_eq h]
  rfl

theorem readPayload_eq (name : Card.CardName) (particles : List Particle)
    (h : Text.bytes body < lengthLimit) :
    readPayload name particles body = sound (Card.readPayload name particles body) := by
  obtain ⟨marker, mnemonic, number, designators⟩ := name
  have hgroups := bodyGroups_eq h
  unfold readPayload
  dsimp only
  split
  · next n =>
    rw [readMaterial_eq n h]
    change _ = sound (if n = 0 then _ else _)
    split
    · rfl
    · cases Card.readMaterial n (Text.tokens [] body) <;> rfl
  · rw [expandValues_eq, ← sound_map, complete_sound]
    rfl
  · rw [readSourcePoints_eq, ← sound_map, complete_sound]
    rfl
  · rw [hgroups]
    rfl
  · next n => rw [readTally_eq n marker particles h, ← sound_map, complete_sound]; rfl
  · rw [expandNumbers_eq, ← sound_map, complete_sound]
    rfl
  · rw [expandNumbers_eq, ← sound_map, complete_sound]
    rfl
  · rw [readTransform_eq, ← sound_map, complete_sound]
    rfl
  · rw [readCellImportances_eq, ← sound_map, complete_sound]
    rfl
  · rw [expandValues_eq, ← sound_map, complete_sound]
    rfl
  · rw [expandValues_eq, ← sound_map, complete_sound]
    rfl
  · rw [expandValues_eq, ← sound_map, complete_sound]
    rfl
  · rw [expandNumbers_eq, ← sound_map, complete_sound]
    rfl
  · rw [expandValues_eq, ← sound_map, complete_sound]
    rfl
  · rw [hgroups]
    rfl
  · rw [hgroups]
    rfl
  · rfl

theorem bytes_body_le (text : List Char) :
    Text.bytes (Card.splitHead text).2 ≤ Text.bytes text :=
  Text.bytes_sublist <| (Text.trim_sublist _).trans <|
    (List.dropWhile_sublist _).trans (Text.trim_sublist text)

theorem readData_eq {text : List Char} (h : Text.bytes text < lengthLimit) :
    readData text = some (Card.readData text) := by
  have hbody := Nat.lt_of_le_of_lt (bytes_body_le text) h
  unfold readData Card.readData
  generalize Card.splitHead text = split at hbody
  obtain ⟨word, body⟩ := split
  dsimp only at hbody ⊢
  cases Card.readCardName? word with
  | none => rfl
  | some name =>
    dsimp only
    cases Card.nameParticles? name with
    | none => rfl
    | some particles =>
      dsimp only
      rw [readPayload_eq name particles hbody, run_sound]
      rfl

end Payloads

end TransportDeck.Checked
