import TransportDeck.Proofs.Like.Nearest
import TransportDeck.Proofs.Reference.InTurn

namespace TransportDeck

section Entries

variable {κ α : Type} [DecidableEq κ] {k : κ} {a : α} {entries lower upper : List (κ × α)}

theorem keys_replaceOrAppend (k : κ) (a : α) (entries : List (κ × α)) :
    (replaceOrAppend k a entries).map (·.1) =
      if k ∈ entries.map (·.1) then entries.map (·.1) else entries.map (·.1) ++ [k] := by
  induction entries with
  | nil => rfl
  | cons e rest ih =>
    rw [replaceOrAppend]
    by_cases hkey : e.1 = k
    · simp [hkey]
    · rw [if_neg hkey, List.map_cons, ih, List.map_cons]
      by_cases hlater : k ∈ rest.map (·.1)
      · rw [if_pos hlater, if_pos (List.mem_cons_of_mem _ hlater)]
      · have hnew : k ∉ e.1 :: rest.map (·.1) :=
          List.not_mem_cons_of_ne_of_not_mem (Ne.symm hkey) hlater
        rw [if_neg hlater, if_neg hnew, List.cons_append]

/-- Keys of the lower layer keep their places. The others follow in the order in which they first come
up in the upper layer. -/
theorem keys_laidOver (lower upper : List (κ × α)) :
    (laidOver lower upper).map (·.1) = lower.map (·.1) ++
      ((upper.map (·.1)).filter fun k => k ∉ lower.map (·.1)).eraseDups := by
  induction upper generalizing lower with
  | nil => simp
  | cons e rest ih =>
    change (laidOver (replaceOrAppend e.1 e.2 lower) rest).map (·.1) = _
    rw [ih, keys_replaceOrAppend, List.map_cons]
    by_cases hold : e.1 ∈ lower.map (·.1)
    · rw [if_pos hold, List.filter_cons_of_neg (by simpa using hold)]
    · -- the key is new here, and is not new any more for the rest
      have hrest : ((rest.map (·.1)).filter fun k => k ∉ lower.map (·.1) ++ [e.1]) =
          ((rest.map (·.1)).filter fun k => k ∉ lower.map (·.1)).filter fun k => !k == e.1 := by
        rw [List.filter_filter]
        apply List.filter_congr
        intro k _
        by_cases hsame : k = e.1
        · simp [hsame]
        · have hdiffers : (k == e.1) = false := beq_eq_false_iff_ne.mpr hsame
          simp [hsame, hdiffers]
      rw [if_neg hold, hrest, List.filter_cons_of_pos (by simpa using hold), List.eraseDups_cons,
        List.append_assoc, List.singleton_append]

section Lookup

variable [BEq κ] [LawfulBEq κ]

theorem lookup_replaceOrAppend_same (k : κ) (a : α) (entries : List (κ × α)) :
    (replaceOrAppend k a entries).lookup k = some a := by
  induction entries with
  | nil => exact lookup_same rfl
  | cons e rest ih =>
    rw [replaceOrAppend]
    split
    · exact lookup_same rfl
    · next hkey => rw [lookup_other (Ne.symm hkey), ih]

theorem lookup_replaceOrAppend_other {k' : κ} (h : k' ≠ k) (a : α) (entries : List (κ × α)) :
    (replaceOrAppend k a entries).lookup k' = entries.lookup k' := by
  induction entries with
  | nil => exact lookup_other h
  | cons e rest ih =>
    rw [replaceOrAppend]
    split
    · next hkey =>
      have hother : k' ≠ e.1 := hkey ▸ h
      rw [lookup_other h, lookup_other hother]
    · by_cases here : k' = e.1
      · rw [lookup_same here, lookup_same here]
      · rw [lookup_other here, lookup_other here, ih]

theorem lookup_laidOver_of_not_mem (h : k ∉ upper.map (·.1)) (lower : List (κ × α)) :
    (laidOver lower upper).lookup k = lower.lookup k := by
  induction upper generalizing lower with
  | nil => rfl
  | cons e rest ih =>
    have hfirst : k ≠ e.1 := List.ne_of_not_mem_cons h
    have hrest : k ∉ rest.map (·.1) := List.not_mem_of_not_mem_cons h
    change (laidOver (replaceOrAppend e.1 e.2 lower) rest).lookup k = _
    rw [ih hrest, lookup_replaceOrAppend_other hfirst]

/-- Whatever comes before it, the last entry of a key is the one that is found. -/
theorem lookup_laidOver_of_last {before after : List (κ × α)} (h : k ∉ after.map (·.1))
    (lower : List (κ × α)) : (laidOver lower (before ++ (k, a) :: after)).lookup k = some a := by
  have hsplit : laidOver lower (before ++ (k, a) :: after) =
      laidOver (replaceOrAppend k a (laidOver lower before)) after := by
    rw [laidOver, List.foldl_append, List.foldl_cons]
    rfl
  rw [hsplit, lookup_laidOver_of_not_mem h, lookup_replaceOrAppend_same]

end Lookup

end Entries

namespace CellParams

def keywords (p : CellParams) : List String := p.other.map (·.1)

/-- The keywords that only the upper layer has, each once, in the order in which they first come up. -/
def NewKeywords (lower upper : CellParams) (added : List String) : Prop :=
  (∀ key, key ∈ added ↔ key ∈ upper.keywords ∧ key ∉ lower.keywords) ∧
    added.Pairwise fun k l => upper.keywords.idxOf k < upper.keywords.idxOf l

variable (lower upper : CellParams)

theorem exists_newKeywords : ∃ added, NewKeywords lower upper added ∧
    (lower.overlay upper).keywords = lower.keywords ++ added := by
  obtain ⟨hfirst, hmem⟩ :=
    firstPlaces_eraseDups (upper.keywords.filter fun key => key ∉ lower.keywords)
  refine ⟨_, ⟨fun key => ?_, ?_⟩, keys_laidOver lower.other upper.other⟩
  · exact (hmem key).trans (by rw [List.mem_filter, decide_eq_true_iff])
  · -- leaving out the keywords of the lower layer does not change which of two comes first
    apply hfirst.imp_of_mem
    intro k l hk hl hlt
    have hk := (List.mem_filter.mp ((hmem k).mp hk)).2
    have hl := (List.mem_filter.mp ((hmem l).mp hl)).2
    exact idxOf_lt_of_filter (p := fun key => key ∉ lower.keywords) hk hl _ hlt

/-- Of two layers the upper one counts wherever it sets something: each parameter, the importance of
each particle, and the values of each keyword, of which the last count. What it leaves open shows
through from the lower layer, whose keywords keep their places. Both layers are values and stay what
they are. -/
theorem overlay_exact :
    (lower.overlay upper).signedUniverse = upper.signedUniverse.or lower.signedUniverse ∧
    (lower.overlay upper).fill = upper.fill.or lower.fill ∧
    (lower.overlay upper).lattice = upper.lattice.or lower.lattice ∧
    (lower.overlay upper).transform = upper.transform.or lower.transform ∧
    (lower.overlay upper).volume = upper.volume.or lower.volume ∧
    (lower.overlay upper).temperature = upper.temperature.or lower.temperature ∧
    (∀ particle, (lower.overlay upper).importance.find? particle =
      (upper.importance.find? particle).or (lower.importance.find? particle)) ∧
    (∀ key before values after, upper.other = before ++ (key, values) :: after →
      key ∉ after.map (·.1) → (lower.overlay upper).other? key = some values) ∧
    (∀ key, key ∉ upper.keywords → (lower.overlay upper).other? key = lower.other? key) ∧
    ∃ added, NewKeywords lower upper added ∧
      (lower.overlay upper).keywords = lower.keywords ++ added := by
  refine ⟨Option.orElse_eq_or, Option.orElse_eq_or, Option.orElse_eq_or, Option.orElse_eq_or,
    Option.orElse_eq_or, Option.orElse_eq_or, find?_importance_overlay lower upper, ?_, ?_,
    exists_newKeywords lower upper⟩
  · intro key before values after hother hlast
    change (laidOver lower.other upper.other).lookup key = some values
    rw [hother]
    exact lookup_laidOver_of_last hlast lower.other
  · intro key hkey
    exact lookup_laidOver_of_not_mem hkey lower.other

def repeatedLower : CellParams where
  importance := .ofList [(.neutron, 1), (.photon, 2)]
  lattice := some 1
  other := [("pd", ["1"]), ("mat", ["2"]), ("pd", ["3"])]

def repeatedUpper : CellParams where
  importance := .ofList [(.photon, 0)]
  signedUniverse := some (-4)
  other := [("ext", ["4"]), ("pd", ["5"]), ("ext", ["6"]), ("pd", ["7"])]

theorem overlay_repeatedUpper :
    (repeatedLower.overlay repeatedUpper).signedUniverse = some (-4) ∧
    (repeatedLower.overlay repeatedUpper).lattice = some 1 ∧
    (repeatedLower.overlay repeatedUpper).importance.find? .neutron = some 1 ∧
    (repeatedLower.overlay repeatedUpper).importance.find? .photon = some 0 ∧
    "ext" ∉ [("pd", ["7"])].map (fun e : String × List String => e.1) ∧
    (repeatedLower.overlay repeatedUpper).other? "ext" = some ["6"] ∧
    (repeatedLower.overlay repeatedUpper).other? "pd" = some ["7"] ∧
    "mat" ∉ repeatedUpper.keywords ∧
    (repeatedLower.overlay repeatedUpper).other? "mat" = some ["2"] ∧
    (repeatedLower.overlay repeatedUpper).keywords = ["pd", "mat", "pd", "ext"] := by
  obtain ⟨huniverse, -, hlattice, -, -, -, himportance, hlast, hkept, -⟩ :=
    overlay_exact repeatedLower repeatedUpper
  have hmat : "mat" ∉ repeatedUpper.keywords := by decide
  refine ⟨huniverse, hlattice, (himportance _).trans (by decide +kernel),
    (himportance _).trans (by decide +kernel), by decide,
    hlast "ext" [("ext", ["4"]), ("pd", ["5"])] ["6"] [("pd", ["7"])] rfl (by decide),
    hlast "pd" [("ext", ["4"]), ("pd", ["5"]), ("ext", ["6"])] ["7"] [] rfl (by decide), hmat,
    hkept "mat" hmat, by decide⟩

end CellParams

end TransportDeck
