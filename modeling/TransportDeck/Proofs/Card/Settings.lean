import TransportDeck.Card.Cell
import TransportDeck.Table.Lookup

namespace TransportDeck.Card

open Number

inductive Setting
  | importance (particles : List Particle) (value : Float)
  | inUniverse (u : Int)
  | fill (f : Fill)
  | lattice (kind : Int)
  | transform (spec : TransformSpec)
  | volume (value : Float)
  | temperature (value : Float)
  | other (keyword : String) (values : List String)
  deriving DecidableEq

def Setting.apply (p : CellParams) : Setting → CellParams
  | importance particles value =>
    { p with importance := particles.foldl (fun t particle => t.insert particle value) p.importance }
  | inUniverse u => { p with signedUniverse := some u }
  | fill f => { p with fill := some f }
  | lattice kind => { p with lattice := some kind }
  | transform spec => { p with transform := some spec }
  | volume value => { p with volume := some value }
  | temperature value => { p with temperature := some value }
  | other keyword values => { p with other := p.other ++ [(keyword, values)] }

def parameterNames : List String :=
  ["imp", "u", "lat", "vol", "tmp", "trcl", "*trcl", "fill", "*fill"]

/-- The groups without a fault, and the setting that each of them asks for. -/
inductive Gives : String → List String → Setting → Prop
  | importance {keyword designators token : String} {particles : List Particle} {value : Float}
      (name : splitKeyword keyword = ("imp", some designators))
      (known : Particle.ofList? designators = some particles)
      (number : readFloat? token = some value) (sign : ¬value < 0) :
      Gives keyword [token] (.importance particles value)
  | inUniverse {keyword token : String} {u : Int} (name : (splitKeyword keyword).1 = "u")
      (number : readInt32? token = some u) : Gives keyword [token] (.inUniverse u)
  | lattice {keyword token : String} {kind : Int} (name : (splitKeyword keyword).1 = "lat")
      (number : readInt32? token = some kind) : Gives keyword [token] (.lattice kind)
  | volume {keyword token : String} {value : Float} (name : (splitKeyword keyword).1 = "vol")
      (number : readFloat? token = some value) : Gives keyword [token] (.volume value)
  | temperature {keyword token : String} {value : Float} (name : (splitKeyword keyword).1 = "tmp")
      (number : readFloat? token = some value) (sign : ¬value ≤ 0) :
      Gives keyword [token] (.temperature value)
  | transform {keyword : String} {values : List String} {spec : TransformSpec} (degrees : Bool)
      (name : (splitKeyword keyword).1 = if degrees then "*trcl" else "trcl")
      (read : readTransformSpec degrees values = .ok spec) : Gives keyword values (.transform spec)
  | fill {keyword : String} {values : List String} {f : Fill} (degrees : Bool)
      (name : (splitKeyword keyword).1 = if degrees then "*fill" else "fill")
      (read : readFill degrees values = .ok f) : Gives keyword values (.fill f)
  | other {keyword : String} (values : List String)
      (name : (splitKeyword keyword).1 ∉ parameterNames) :
      Gives keyword values (.other keyword values)

def readImportance (keyword : String) (designators : Option String) (values : List String) :
    Except CardFault Setting := do
  let designators ← orFault .importanceParticle designators
  let particles ← orFault (.keywordParticle keyword) (Particle.ofList? designators)
  let value ← readFloat (← single keyword values)
  if value < 0 then throw (.negativeImportance value)
  return .importance particles value

def readTemperature (keyword : String) (values : List String) : Except CardFault Setting := do
  let value ← readFloat (← single keyword values)
  if value ≤ 0 then throw (.temperature value)
  return .temperature value

/-- What a group asks for, read without any parameters at hand. -/
def readSetting (keyword : String) (values : List String) : Except CardFault Setting :=
  let (name, designators) := splitKeyword keyword
  match name with
  | "imp" => readImportance keyword designators values
  | "u" => do return .inUniverse (← readInt32 (← single keyword values))
  | "lat" => do return .lattice (← readInt32 (← single keyword values))
  | "vol" => do return .volume (← readFloat (← single keyword values))
  | "tmp" => readTemperature keyword values
  | "trcl" => .transform <$> readTransformSpec false values
  | "*trcl" => .transform <$> readTransformSpec true values
  | "fill" => .fill <$> readFill false values
  | "*fill" => .fill <$> readFill true values
  | _ => .ok (.other keyword values)

section Given

variable {keyword : String} {values : List String} {setting : Setting}

theorem exists_token {α : Type} {f : String → Except CardFault α} {a : α}
    (h : (single keyword values >>= f) = .ok a) : ∃ token, values = [token] ∧ f token = .ok a := by
  unfold single at h
  split at h
  · exact ⟨_, rfl, h⟩
  · cases h

theorem exists_number {α : Type} {read : String → Option α} {make : α → Setting}
    (h : (single keyword values >>= fun token => make <$> orFault (.number token) (read token)) =
      .ok setting) : ∃ token a, values = [token] ∧ read token = some a ∧ make a = setting := by
  obtain ⟨token, hvalues, hmake⟩ := exists_token h
  obtain ⟨a, ha, hsetting⟩ := map_eq_ok.mp hmake
  exact ⟨token, a, hvalues, orFault_eq_ok.mp ha, hsetting⟩

theorem gives_of_readImportance {designators : Option String}
    (hname : splitKeyword keyword = ("imp", designators))
    (h : readImportance keyword designators values = .ok setting) : Gives keyword values setting := by
  obtain ⟨letters, hletters, h⟩ := bind_eq_ok.mp h
  obtain ⟨particles, hparticles, h⟩ := bind_eq_ok.mp h
  obtain ⟨token, rfl, hnumber⟩ := exists_token h
  obtain ⟨value, hvalue, hchecked⟩ := bind_eq_ok.mp hnumber
  split at hchecked
  · cases hchecked
  · next hsign =>
    cases hchecked
    rw [orFault_eq_ok.mp hletters] at hname
    exact .importance hname (orFault_eq_ok.mp hparticles) (orFault_eq_ok.mp hvalue) hsign

theorem gives_of_readTemperature (hname : (splitKeyword keyword).1 = "tmp")
    (h : readTemperature keyword values = .ok setting) : Gives keyword values setting := by
  obtain ⟨token, rfl, hnumber⟩ := exists_token h
  obtain ⟨value, hvalue, hchecked⟩ := bind_eq_ok.mp hnumber
  split at hchecked
  · cases hchecked
  · next hsign =>
    cases hchecked
    exact .temperature hname (orFault_eq_ok.mp hvalue) hsign

theorem gives_of_readSetting (h : readSetting keyword values = .ok setting) :
    Gives keyword values setting := by
  unfold readSetting at h
  dsimp only at h
  split at h
  · next hname => exact gives_of_readImportance (Prod.ext hname rfl) h
  · next hname =>
    obtain ⟨token, u, rfl, hu, rfl⟩ := exists_number h
    exact .inUniverse hname hu
  · next hname =>
    obtain ⟨token, kind, rfl, hkind, rfl⟩ := exists_number h
    exact .lattice hname hkind
  · next hname =>
    obtain ⟨token, volume, rfl, hvolume, rfl⟩ := exists_number h
    exact .volume hname hvolume
  · next hname => exact gives_of_readTemperature hname h
  · next hname =>
    obtain ⟨spec, hspec, rfl⟩ := map_eq_ok.mp h
    exact .transform false hname hspec
  · next hname =>
    obtain ⟨spec, hspec, rfl⟩ := map_eq_ok.mp h
    exact .transform true hname hspec
  · next hname =>
    obtain ⟨f, hf, rfl⟩ := map_eq_ok.mp h
    exact .fill false hname hf
  · next hname =>
    obtain ⟨f, hf, rfl⟩ := map_eq_ok.mp h
    exact .fill true hname hf
  · cases h
    refine .other values ?_
    simp_all [parameterNames]

theorem readImportance_of_known {designators token : String} {particles : List Particle}
    {value : Float} (known : Particle.ofList? designators = some particles)
    (number : readFloat? token = some value) (sign : ¬value < 0) :
    readImportance keyword (some designators) [token] = .ok (.importance particles value) := by
  refine bind_eq_ok.mpr ⟨designators, rfl, bind_eq_ok.mpr ⟨particles, orFault_eq_ok.mpr known, ?_⟩⟩
  refine bind_eq_ok.mpr ⟨token, rfl, bind_eq_ok.mpr ⟨value, orFault_eq_ok.mpr number, ?_⟩⟩
  exact if_neg sign

theorem readTemperature_of_positive {token : String} {value : Float}
    (number : readFloat? token = some value) (sign : ¬value ≤ 0) :
    readTemperature keyword [token] = .ok (.temperature value) := by
  refine bind_eq_ok.mpr ⟨token, rfl, bind_eq_ok.mpr ⟨value, orFault_eq_ok.mpr number, ?_⟩⟩
  exact if_neg sign

theorem readSetting_of_gives (h : Gives keyword values setting) :
    readSetting keyword values = .ok setting := by
  unfold readSetting
  dsimp only
  cases h with
  | importance name known number sign =>
    rw [name]
    exact readImportance_of_known known number sign
  | inUniverse name number | lattice name number | volume name number =>
    rw [name]
    exact bind_eq_ok.mpr ⟨_, rfl, map_eq_ok.mpr ⟨_, orFault_eq_ok.mpr number, rfl⟩⟩
  | temperature name number sign =>
    rw [name]
    exact readTemperature_of_positive number sign
  | transform degrees name read | fill degrees name read =>
    rw [name]
    cases degrees <;> exact map_eq_ok.mpr ⟨_, read, rfl⟩
  | other values name =>
    split
    all_goals simp_all [parameterNames]

theorem Gives.unique {other : Setting} (h : Gives keyword values setting)
    (hother : Gives keyword values other) : setting = other := by
  have hread := readSetting_of_gives h
  rw [readSetting_of_gives hother] at hread
  exact (Except.ok.inj hread).symm

end Given

/-- The run takes the setting that is read over into the parameters, or leaves them and fails. -/
def Takes (run : OnParams Unit) (read : Except CardFault Setting) : Prop :=
  ∀ p, run.run.run p = match read with
    | .ok setting => (.ok (), setting.apply p)
    | .error fault => (.error fault, p)

section Runs

variable {keyword : String} {values : List String}

theorem takes_throw (fault : CardFault) : Takes (throw fault) (.error fault) := fun _ => rfl

theorem takes_modify {setting : Setting} {f : CellParams → CellParams}
    (h : ∀ p, f p = setting.apply p) : Takes (modify f) (.ok setting) := by
  intro p
  change (Except.ok (), f p) = (Except.ok (), setting.apply p)
  rw [h]

/-- Reading before the first write fails alike with and without parameters. -/
theorem Takes.bind {α : Type} {run : α → OnParams Unit} {read : α → Except CardFault Setting}
    (r : Except CardFault α) (h : ∀ a, Takes (run a) (read a)) :
    Takes (liftM r >>= run) (r >>= read) := by
  intro p
  cases r with
  | ok a => exact h a p
  | error fault => rfl

theorem run_forM_modify (f : Particle → CellParams → CellParams) (particles : List Particle)
    (p : CellParams) :
    (particles.forM fun particle => (modify (f particle) : OnParams Unit)).run.run p =
      (.ok (), particles.foldl (fun p particle => f particle p) p) := by
  induction particles generalizing p with
  | nil => rfl
  | cons particle rest ih => exact ih (f particle p)

theorem foldl_insert_importance (particles : List Particle) (value : Float) (p : CellParams) :
    particles.foldl (fun p particle => { p with importance := p.importance.insert particle value }) p =
      Setting.apply p (.importance particles value) := by
  induction particles generalizing p with
  | nil => rfl
  | cons particle rest ih => exact ih _

theorem takes_applyImportance (designators : Option String) :
    Takes (applyImportance keyword designators values)
      (readImportance keyword designators values) := by
  refine .bind _ fun designators => .bind _ fun particles => .bind _ fun token =>
    .bind _ fun value => ?_
  by_cases hsign : value < 0
  · simp only [if_pos hsign]
    exact takes_throw _
  · simp only [if_neg hsign]
    intro p
    exact (run_forM_modify _ particles p).trans
      (congrArg (Prod.mk (Except.ok ())) (foldl_insert_importance particles value p))

theorem takes_applyTemperature :
    Takes (applyTemperature keyword values) (readTemperature keyword values) := by
  refine .bind _ fun token => .bind _ fun value => ?_
  by_cases hsign : value ≤ 0
  · simp only [if_pos hsign]
    exact takes_throw _
  · simp only [if_neg hsign]
    exact takes_modify fun _ => rfl

theorem applyParam_other (h : (splitKeyword keyword).1 ∉ parameterNames) :
    applyParam keyword values =
      modify fun p => { p with other := p.other ++ [(keyword, values)] } := by
  unfold applyParam
  dsimp only
  split
  all_goals simp_all [parameterNames]

theorem takes_applyParam (keyword : String) (values : List String) :
    Takes (applyParam keyword values) (readSetting keyword values) := by
  by_cases hname : (splitKeyword keyword).1 ∈ parameterNames
  · simp only [parameterNames, List.mem_cons, List.not_mem_nil, or_false] at hname
    unfold applyParam readSetting
    dsimp only
    rcases hname with h | h | h | h | h | h | h | h | h <;> rw [h]
    · exact takes_applyImportance _
    · exact .bind _ fun token => .bind _ fun u => takes_modify fun _ => rfl
    · exact .bind _ fun token => .bind _ fun kind => takes_modify fun _ => rfl
    · exact .bind _ fun token => .bind _ fun volume => takes_modify fun _ => rfl
    · exact takes_applyTemperature
    · exact .bind (readTransformSpec false values) fun spec => takes_modify fun _ => rfl
    · exact .bind (readTransformSpec true values) fun spec => takes_modify fun _ => rfl
    · exact .bind (readFill false values) fun f => takes_modify fun _ => rfl
    · exact .bind (readFill true values) fun f => takes_modify fun _ => rfl
  · rw [applyParam_other hname, readSetting_of_gives (.other values hname)]
    exact takes_modify fun _ => rfl

end Runs

end TransportDeck.Card
