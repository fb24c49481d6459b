import Mathlib.Data.List.Basic
import TransportDeck.Like

namespace TransportDeck

open Number

variable {keyword : String × List String} {keywords : KeywordGroups}

def setMaterial? (keyword : String × List String) : Option Nat :=
  match keyword.2 with
  | [value] => if keyword.1 = "mat" then readCardinal? value else none
  | _ => none

def setDensity? (keyword : String × List String) : Option (Option Float) :=
  match keyword.2 with
  | [value] =>
    if keyword.1 = "mat" then if readCardinal? value = some 0 then some none else none
    else if keyword.1 = "rho" then (readFloat? value).map some
    else none
  | _ => none

theorem setDensity?_eq_none_iff :
    setDensity? keyword = some none ↔ setMaterial? keyword = some 0 := by
  obtain ⟨name, values⟩ := keyword
  match values with
  | [] | _ :: _ :: _ => simp [setDensity?, setMaterial?]
  | [value] =>
    by_cases hmat : name = "mat"
    · simp [setDensity?, setMaterial?, hmat]
    · by_cases hrho : name = "rho" <;> simp [setDensity?, setMaterial?, hmat, hrho]

theorem setDensity?_eq_some_iff {density : Float} : setDensity? keyword = some (some density) ↔
    ∃ value, keyword = ("rho", [value]) ∧ readFloat? value = some density := by
  obtain ⟨name, values⟩ := keyword
  match values with
  | [] | _ :: _ :: _ => simp [setDensity?]
  | [value] =>
    by_cases hmat : name = "mat"
    · simp [setDensity?, hmat]
    · by_cases hrho : name = "rho" <;> simp [setDensity?, hmat, hrho]

def lastSet? {α : Type} (set? : String × List String → Option α) (keywords : KeywordGroups) :
    Option α :=
  (keywords.filterMap set?).getLast?

theorem lastSet?_eq_none_iff {α : Type} {set? : String × List String → Option α} :
    lastSet? set? keywords = none ↔ ∀ keyword ∈ keywords, set? keyword = none := by
  rw [lastSet?, List.getLast?_eq_none_iff, List.filterMap_eq_nil_iff]

theorem lastSet?_singleton {α : Type} (set? : String × List String → Option α)
    (keyword : String × List String) : lastSet? set? [keyword] = set? keyword := by
  cases h : set? keyword <;> simp [lastSet?, h]

theorem lastSet?_append {α : Type} (set? : String × List String → Option α)
    (earlier later : KeywordGroups) :
    lastSet? set? (earlier ++ later) = (lastSet? set? later).or (lastSet? set? earlier) := by
  rw [lastSet?, List.filterMap_append, List.getLast?_append]
  rfl

theorem lastSet?_snoc {α : Type} (set? : String × List String → Option α) :
    lastSet? set? (keywords ++ [keyword]) = (set? keyword).or (lastSet? set? keywords) := by
  rw [lastSet?_append, lastSet?_singleton]

theorem getD_lastSet?_append {α : Type} (set? : String × List String → Option α)
    (earlier later : KeywordGroups) (a : α) :
    (lastSet? set? (earlier ++ later)).getD a =
      (lastSet? set? later).getD ((lastSet? set? earlier).getD a) := by
  rw [lastSet?_append]
  cases lastSet? set? later <;> rfl

namespace Cell

def withLastSet (c : Cell) (keywords : KeywordGroups) : Cell :=
  { c with
    material := (lastSet? setMaterial? keywords).getD c.material
    density := (lastSet? setDensity? keywords).getD c.density }

theorem withLastSet_append (c : Cell) (earlier later : KeywordGroups) :
    c.withLastSet (earlier ++ later) = (c.withLastSet earlier).withLastSet later := by
  simp only [withLastSet, getD_lastSet?_append]

theorem withLastSet_singleton (c : Cell) (keyword : String × List String) :
    c.withLastSet [keyword] =
      { c with
        material := (setMaterial? keyword).getD c.material
        density := (setDensity? keyword).getD c.density } := by
  rw [withLastSet, lastSet?_singleton, lastSet?_singleton]

/-- A material or density keyword is put to effect, or is faulty and sets nothing. -/
theorem applyOverride_cases (c : Cell) (h : isOverride keyword) :
    c.applyOverride keyword = .ok (c.withLastSet [keyword]) ∨
      ∃ fault, c.applyOverride keyword = .error fault ∧ c.withLastSet [keyword] = c := by
  obtain ⟨name, values⟩ := keyword
  have hname : name = "mat" ∨ name ≠ "mat" ∧ name = "rho" := by
    by_cases hmat : name = "mat"
    · exact .inl hmat
    · exact .inr ⟨hmat, by simpa [isOverride, hmat] using h⟩
  rw [withLastSet_singleton]
  match values with
  | [] => exact .inr ⟨_, rfl, rfl⟩
  | _ :: _ :: _ => exact .inr ⟨_, rfl, rfl⟩
  | [value] =>
    rcases hname with rfl | ⟨hmat, rfl⟩
    · simp only [applyOverride, setMaterial?, setDensity?, if_true]
      cases hvalue : readCardinal? value with
      | none => exact .inr ⟨_, rfl, by simp⟩
      | some m => by_cases hm : m = 0 <;> simp [hm]
    · simp only [applyOverride, setMaterial?, setDensity?, hmat, if_false, if_true]
      cases readFloat? value with
      | none => exact .inr ⟨_, rfl, rfl⟩
      | some density => exact .inl rfl

/-- Keywords put in one after the other set what the last of them set. -/
theorem applyOverrides_eq (c : Cell) (h : ∀ keyword ∈ keywords, isOverride keyword) :
    (c.applyOverrides keywords).1 = c.withLastSet keywords := by
  induction keywords generalizing c with
  | nil => rfl
  | cons keyword rest ih =>
    have hrest : ∀ k ∈ rest, isOverride k := fun k hk => h k (List.mem_cons_of_mem _ hk)
    rw [← List.singleton_append, withLastSet_append]
    rcases c.applyOverride_cases (h keyword List.mem_cons_self) with hok | ⟨fault, hfault, hsame⟩
    · simp only [List.singleton_append, applyOverrides, hok]
      exact ih _ hrest
    · simp only [List.singleton_append, applyOverrides, hfault, hsame]
      exact ih c hrest

end Cell

section LaidOver

variable {κ α : Type} [DecidableEq κ]

/-- Only the entries of the key itself are touched. -/
theorem filter_replaceOrAppend (p : κ → Bool) (k : κ) (a : α) (entries : List (κ × α)) :
    (replaceOrAppend k a entries).filter (fun e => p e.1) =
      if p k then replaceOrAppend k a (entries.filter fun e => p e.1)
      else entries.filter fun e => p e.1 := by
  induction entries with
  | nil => cases hp : p k <;> simp [replaceOrAppend, hp]
  | cons e rest ih =>
    by_cases hkey : e.1 = k
    · subst hkey
      cases hp : p e.1 <;> simp [replaceOrAppend, hp]
    · cases hp : p k <;> cases hpe : p e.1 <;> simp [replaceOrAppend, hkey, hp, hpe, ih]

def laidOver (lower upper : List (κ × α)) : List (κ × α) :=
  upper.foldl (fun kept e => replaceOrAppend e.1 e.2 kept) lower

@[simp] theorem laidOver_nil (lower : List (κ × α)) : laidOver lower [] = lower := rfl

theorem filter_laidOver (p : κ → Bool) (lower upper : List (κ × α)) :
    (laidOver lower upper).filter (fun e => p e.1) =
      laidOver (lower.filter fun e => p e.1) (upper.filter fun e => p e.1) := by
  induction upper generalizing lower with
  | nil => rfl
  | cons e rest ih =>
    simp only [laidOver, List.foldl_cons] at ih ⊢
    rw [ih, filter_replaceOrAppend]
    cases hp : p e.1 <;> simp [hp]

end LaidOver

end TransportDeck
