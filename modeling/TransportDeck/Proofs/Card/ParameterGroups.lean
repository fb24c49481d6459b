import Mathlib.Data.List.Induction
import TransportDeck.Proofs.Card.Settings

namespace TransportDeck.Card

variable {g : String × List String} {groups : KeywordGroups} {setting : Setting} {fault : CardFault}

/-- How a group ends on the parameters `p`, and the parameters that it leaves. -/
def outcome (g : String × List String) (p : CellParams) : Except CardFault Unit × CellParams :=
  (applyParam g.1 g.2).run.run p

def fault? (g : String × List String) : Option CardFault :=
  match (outcome g {}).1 with
  | .ok _ => none
  | .error fault => some fault

section Outcomes

theorem outcome_of_gives (h : Gives g.1 g.2 setting) (p : CellParams) :
    outcome g p = (.ok (), setting.apply p) := by
  have hrun := takes_applyParam g.1 g.2 p
  rwa [readSetting_of_gives h] at hrun

theorem fault?_of_gives (h : Gives g.1 g.2 setting) : fault? g = none := by
  rw [fault?, outcome_of_gives h]

/-- A group asks for a setting and gets it on all parameters, or it fails on all of them and leaves
them as they are. -/
theorem gives_or_fails (g : String × List String) : (∃ setting, Gives g.1 g.2 setting) ∨
    ∃ fault, (∀ setting, ¬Gives g.1 g.2 setting) ∧ fault? g = some fault ∧
      ∀ p, outcome g p = (.error fault, p) := by
  have hrun := takes_applyParam g.1 g.2
  cases hread : readSetting g.1 g.2 with
  | ok setting => exact .inl ⟨setting, gives_of_readSetting hread⟩
  | error fault =>
    rw [hread] at hrun
    refine .inr ⟨fault, fun setting hgives => ?_, ?_, hrun⟩
    · rw [readSetting_of_gives hgives] at hread
      cases hread
    · rw [fault?, outcome, hrun {}]

theorem outcome_of_fault (h : fault? g = some fault) (p : CellParams) :
    outcome g p = (.error fault, p) := by
  obtain ⟨setting, hgives⟩ | ⟨found, -, hfault, hfails⟩ := gives_or_fails g
  · rw [fault?_of_gives hgives] at h
    cases h
  · rw [h] at hfault
    cases hfault
    exact hfails p

/-- Whether a group fails does not depend on the parameters it meets. -/
theorem outcome_fst (g : String × List String) (p : CellParams) :
    (outcome g p).1 = (outcome g {}).1 := by
  obtain ⟨setting, hgives⟩ | ⟨fault, -, -, hfails⟩ := gives_or_fails g
  · rw [outcome_of_gives hgives, outcome_of_gives hgives]
  · rw [hfails, hfails]

theorem outcome_snd_of_error {p : CellParams} (h : (outcome g p).1 = .error fault) :
    (outcome g p).2 = p := by
  obtain ⟨setting, hgives⟩ | ⟨found, -, -, hfails⟩ := gives_or_fails g
  · rw [outcome_of_gives hgives] at h
    cases h
  · rw [hfails]

theorem readSetting_of_fault? (h : fault? g = some fault) : readSetting g.1 g.2 = .error fault := by
  have hrun := takes_applyParam g.1 g.2 {}
  cases hread : readSetting g.1 g.2 with
  | ok setting =>
    rw [fault?_of_gives (gives_of_readSetting hread)] at h
    cases h
  | error found =>
    rw [hread] at hrun
    rw [fault?, outcome, hrun] at h
    exact congrArg Except.error (Option.some.inj h)

theorem fault?_isSome_iff : (∃ fault, fault? g = some fault) ↔ ∀ setting, ¬Gives g.1 g.2 setting := by
  obtain ⟨setting, hgives⟩ | ⟨fault, hnone, hfault, -⟩ := gives_or_fails g
  · rw [fault?_of_gives hgives]
    exact ⟨nofun, fun hnone => absurd hgives (hnone setting)⟩
  · exact ⟨fun _ => hnone, fun _ => ⟨fault, hfault⟩⟩

end Outcomes

section Runs

theorem applyGroup_eq (state : CellParams × List CardFault) (g : String × List String) :
    applyGroup state g = ((outcome g state.1).2, state.2 ++ (fault? g).toList) := by
  change (match outcome g state.1 with
    | (.ok _, params) => (params, state.2)
    | (.error fault, params) => (params, state.2 ++ [fault])) = _
  obtain ⟨setting, hgives⟩ | ⟨fault, -, hfault, hfails⟩ := gives_or_fails g
  · rw [outcome_of_gives hgives, fault?_of_gives hgives]
    simp
  · rw [hfails, hfault]
    rfl

/-- The parameters and the faults of a run do not meet. -/
theorem foldl_applyGroup (groups : KeywordGroups) (state : CellParams × List CardFault) :
    groups.foldl applyGroup state = (groups.foldl (fun p g => (outcome g p).2) state.1,
      state.2 ++ groups.filterMap fault?) := by
  induction groups generalizing state with
  | nil => simp
  | cons g rest ih =>
    rw [List.foldl_cons, ih, applyGroup_eq]
    cases hfault : fault? g <;> simp [hfault]

theorem readGroups_eq (groups : KeywordGroups) : readGroups groups =
    (groups.foldl (fun p g => (outcome g p).2) {}, groups.filterMap fault?) :=
  foldl_applyGroup groups ({}, [])

theorem readGroups_concat (groups : KeywordGroups) (g : String × List String) :
    (readGroups (groups ++ [g])).1 = (outcome g (readGroups groups).1).2 := by
  simp only [readGroups_eq, List.foldl_append, List.foldl_cons, List.foldl_nil]

/-- What holds without any setting and is kept by every setting on a card holds of the parameters. -/
theorem readParams_induction {P : CellParams → Prop} {ts : List String} (hempty : P {})
    (happly : ∀ g ∈ cellGroups ts, ∀ setting, Gives g.1 g.2 setting →
      ∀ p, P p → P (setting.apply p)) : P (readParams ts).1 := by
  unfold readParams
  generalize cellGroups ts = groups at happly
  induction groups using List.reverseRecOn with
  | nil => exact hempty
  | append_singleton groups g ih =>
    have hrest : P (readGroups groups).1 :=
      ih fun other hother => happly other (List.mem_append_left _ hother)
    rw [readGroups_concat]
    obtain ⟨setting, hgives⟩ | ⟨fault, -, -, hfails⟩ := gives_or_fails g
    · rw [outcome_of_gives hgives]
      exact happly g (by simp) setting hgives _ hrest
    · rwa [hfails]

/-- The groups without a fault give all the parameters. -/
theorem readGroups_filter (groups : KeywordGroups) :
    readGroups (groups.filter fun g => (fault? g).isNone) = ((readGroups groups).1, []) := by
  have hstep : (fun (p : CellParams) (g : String × List String) =>
      if (fault? g).isNone = true then (outcome g p).2 else p) = fun p g => (outcome g p).2 := by
    funext p g
    obtain ⟨setting, hgives⟩ | ⟨fault, -, hfault, hfails⟩ := gives_or_fails g
    · simp [fault?_of_gives hgives]
    · simp [hfault, hfails]
  rw [readGroups_eq, readGroups_eq, List.foldl_filter, hstep]
  simp [List.filterMap_filter]

/-- A group with a fault may as well be left out, but for the fault. -/
theorem readGroups_fault (h : fault? g = some fault) (earlier later : KeywordGroups) :
    readGroups (earlier ++ g :: later) = ((readGroups (earlier ++ later)).1,
      (readGroups earlier).2 ++ fault :: (readGroups later).2) := by
  simp only [readGroups_eq, List.foldl_append, List.foldl_cons, outcome_of_fault h,
    List.filterMap_append, List.filterMap_cons, h]

end Runs

/-- The parameters of a cell that hold one value each; the importance of each particle is one of its
own. -/
inductive ParamField : Type → Type
  | importance (particle : Particle) : ParamField Float
  | signedUniverse : ParamField Int
  | fill : ParamField Fill
  | lattice : ParamField Int
  | transform : ParamField TransformSpec
  | volume : ParamField Float
  | temperature : ParamField Float

namespace ParamField

def get : {α : Type} → ParamField α → CellParams → Option α
  | _, importance particle, p => p.importance.find? particle
  | _, signedUniverse, p => p.signedUniverse
  | _, fill, p => p.fill
  | _, lattice, p => p.lattice
  | _, transform, p => p.transform
  | _, volume, p => p.volume
  | _, temperature, p => p.temperature

def given : {α : Type} → ParamField α → Setting → Option α
  | _, importance particle, .importance particles value =>
    if particle ∈ particles then some value else none
  | _, signedUniverse, .inUniverse u => some u
  | _, fill, .fill f => some f
  | _, lattice, .lattice kind => some kind
  | _, transform, .transform spec => some spec
  | _, volume, .volume value => some value
  | _, temperature, .temperature value => some value
  | _, _, _ => none

/-- The value that the last of the groups gives, of those that give one. -/
inductive LastGiven {α : Type} (field : ParamField α) (groups : KeywordGroups) : Option α → Prop
  | never (silent : ∀ g ∈ groups, ∀ setting, Gives g.1 g.2 setting → field.given setting = none) :
      LastGiven field groups none
  | last {earlier later : KeywordGroups} {g : String × List String} {setting : Setting} {a : α}
      (place : groups = earlier ++ g :: later) (gives : Gives g.1 g.2 setting)
      (value : field.given setting = some a)
      (silent : ∀ g ∈ later, ∀ setting, Gives g.1 g.2 setting → field.given setting = none) :
      LastGiven field groups (some a)

variable {α : Type} {field : ParamField α}

theorem find?_foldl_insert_const (particles : List Particle) (x : Float) (t : Table Particle Float)
    (particle : Particle) :
    (particles.foldl (fun t p => t.insert p x) t).find? particle =
      if particle ∈ particles then some x else t.find? particle := by
  induction particles generalizing t with
  | nil => simp
  | cons first rest ih =>
    rw [List.foldl_cons, ih]
    by_cases hfirst : particle = first
    · simp [hfirst, Table.find?_insert_same]
    · simp [hfirst, Table.find?_insert_other t hfirst x]

theorem get_empty (field : ParamField α) : field.get {} = none := by
  cases field <;> rfl

/-- A setting that asks for no value of a field leaves it. -/
theorem get_apply (field : ParamField α) (setting : Setting) (p : CellParams) :
    field.get (setting.apply p) = (field.given setting).or (field.get p) := by
  cases field
  case importance particle =>
    cases setting with
    | importance particles x =>
      refine (find?_foldl_insert_const particles x p.importance particle).trans ?_
      change _ = (if particle ∈ particles then some x else none).or (p.importance.find? particle)
      split <;> rfl
    | _ => rfl
  all_goals cases setting <;> rfl

theorem LastGiven.concat {value : Option α} (h : LastGiven field groups value)
    (hg : ∀ setting, Gives g.1 g.2 setting → field.given setting = none) :
    LastGiven field (groups ++ [g]) value := by
  cases h with
  | never silent => exact .never (List.forall_mem_append.mpr ⟨silent, by simpa using hg⟩)
  | @last earlier later found setting a place gives value silent =>
    have hplace : groups ++ [g] = earlier ++ found :: (later ++ [g]) := by
      rw [place, List.append_assoc, List.cons_append]
    exact .last hplace gives value (List.forall_mem_append.mpr ⟨silent, by simpa using hg⟩)

theorem lastGiven_readGroups (field : ParamField α) (groups : KeywordGroups) :
    LastGiven field groups (field.get (readGroups groups).1) := by
  induction groups using List.reverseRecOn with
  | nil =>
    have hempty : field.get (readGroups []).1 = none := field.get_empty
    rw [hempty]
    exact .never nofun
  | append_singleton groups g ih =>
    rw [readGroups_concat]
    obtain ⟨setting, hgives⟩ | ⟨fault, hnone, -, hfails⟩ := gives_or_fails g
    · rw [outcome_of_gives hgives, get_apply]
      cases hvalue : field.given setting with
      | none =>
        refine ih.concat fun other hother => ?_
        rwa [hother.unique hgives]
      | some a => exact .last rfl hgives hvalue nofun
    · rw [hfails]
      exact ih.concat fun setting hgives => absurd hgives (hnone setting)

end ParamField

section Others

theorem other_of_gives (h : Gives g.1 g.2 setting) (p : CellParams) : (setting.apply p).other =
    p.other ++ if (splitKeyword g.1).1 ∈ parameterNames then [] else [g] := by
  obtain ⟨keyword, values⟩ := g
  cases h with
  | other values name => rw [if_neg name]; rfl
  | importance name => simp [name, parameterNames, Setting.apply]
  | transform degrees name => cases degrees <;> simp [name, parameterNames, Setting.apply]
  | fill degrees name => cases degrees <;> simp [name, parameterNames, Setting.apply]
  | inUniverse name | lattice name | volume name | temperature name =>
    simp [name, parameterNames, Setting.apply]

theorem other_outcome (g : String × List String) (p : CellParams) : (outcome g p).2.other =
    p.other ++ if (splitKeyword g.1).1 ∈ parameterNames then [] else [g] := by
  obtain ⟨setting, hgives⟩ | ⟨fault, hnone, -, hfails⟩ := gives_or_fails g
  · rw [outcome_of_gives hgives]
    exact other_of_gives hgives p
  · have hname : (splitKeyword g.1).1 ∈ parameterNames := by
      by_contra hname
      exact hnone _ (.other g.2 hname)
    rw [hfails, if_pos hname, List.append_nil]

/-- Groups of other names are kept as they are written. -/
theorem other_readGroups (groups : KeywordGroups) : (readGroups groups).1.other =
    groups.filter fun g => (splitKeyword g.1).1 ∉ parameterNames := by
  induction groups using List.reverseRecOn with
  | nil => rfl
  | append_singleton groups g ih =>
    rw [readGroups_concat, other_outcome, ih, List.filter_append]
    by_cases hname : (splitKeyword g.1).1 ∈ parameterNames <;> simp [hname]

end Others

/-- Whether a group fails depends on the group alone, and one that fails leaves the parameters as they
are, wherever it stops. So the parameters of a cell are those of the groups without a fault, one after
the other, the faults are one for each other group, in order, and every field holds what the last group
without a fault asks for. -/
theorem readParams_groupwise (ts : List String) :
    (∀ g p, (outcome g p).1 = (outcome g {}).1) ∧
    (∀ g p fault, (outcome g p).1 = .error fault → (outcome g p).2 = p) ∧
    (∀ g, (∃ fault, fault? g = some fault) ↔ ∀ setting, ¬Gives g.1 g.2 setting) ∧
    (readParams ts).2 = (cellGroups ts).filterMap fault? ∧
    readGroups ((cellGroups ts).filter fun g => (fault? g).isNone) = ((readParams ts).1, []) ∧
    (∀ earlier g later fault, cellGroups ts = earlier ++ g :: later → fault? g = some fault →
      readGroups [g] = ({}, [fault]) ∧ (readParams ts).1 = (readGroups (earlier ++ later)).1 ∧
      (readParams ts).2 = (readGroups earlier).2 ++ fault :: (readGroups later).2) ∧
    (∀ (α : Type) (field : ParamField α),
      field.LastGiven (cellGroups ts) (field.get (readParams ts).1)) ∧
    (readParams ts).1.other =
      (cellGroups ts).filter fun g => (splitKeyword g.1).1 ∉ parameterNames := by
  unfold readParams
  generalize cellGroups ts = groups
  refine ⟨outcome_fst, fun _ _ _ => outcome_snd_of_error, fun _ => fault?_isSome_iff, ?_,
    readGroups_filter groups, fun earlier g later fault hsplit hfault => ?_,
    fun _ field => field.lastGiven_readGroups groups, other_readGroups groups⟩
  · rw [readGroups_eq]
  · have hone : readGroups [g] = ({}, [fault]) := by
      simp only [readGroups_eq, List.foldl_cons, List.foldl_nil, outcome_of_fault hfault,
        List.filterMap_cons, hfault, List.filterMap_nil]
    rw [hsplit, readGroups_fault hfault]
    exact ⟨hone, rfl, rfl⟩

def mixedParams : List String :=
  ["u", "=", "2", "imp:n,p", "=", "1", "u", "=", "3x", "imp:p", "=", "2", "imp:n", "=", "-1",
    "u", "=", "4"]

theorem params_of_mixedParams :
    (readParams mixedParams).2 = [.number "3x", .negativeImportance (-1)] ∧
    (∀ p, (outcome ("imp:n", ["-1"]) p).2 = p) ∧
    (readParams mixedParams).1 = (readGroups
      [("u", ["2"]), ("imp:n,p", ["1"]), ("imp:p", ["2"]), ("imp:n", ["-1"]), ("u", ["4"])]).1 ∧
    ParamField.signedUniverse.LastGiven (cellGroups mixedParams) (some 4) ∧
    (ParamField.importance .neutron).LastGiven (cellGroups mixedParams) (some 1) ∧
    (ParamField.importance .photon).LastGiven (cellGroups mixedParams) (some 2) := by
  have hgroups : cellGroups mixedParams = [("u", ["2"]), ("imp:n,p", ["1"])] ++ ("u", ["3x"]) ::
      [("imp:p", ["2"]), ("imp:n", ["-1"]), ("u", ["4"])] := by
    decide +kernel
  have hfault : fault? ("u", ["3x"]) = some (.number "3x") := by decide +kernel
  have huniverse : ParamField.signedUniverse.get (readParams mixedParams).1 = some 4 := by
    decide +kernel
  have hneutron : (ParamField.importance .neutron).get (readParams mixedParams).1 = some 1 := by
    decide +kernel
  have hphoton : (ParamField.importance .photon).get (readParams mixedParams).1 = some 2 := by
    decide +kernel
  obtain ⟨hfst, hsnd, -, hfaults, -, hwithout, hlast, -⟩ := readParams_groupwise mixedParams
  refine ⟨hfaults.trans (by decide +kernel), fun p => ?_, (hwithout _ _ _ _ hgroups hfault).2.1,
    huniverse ▸ hlast _ _, hneutron ▸ hlast _ _, hphoton ▸ hlast _ _⟩
  apply hsnd _ _ (.negativeImportance (-1))
  rw [hfst]
  decide +kernel

end TransportDeck.Card
