import Mathlib.Data.List.Basic
import TransportDeck.Proofs.FillGraph.Fills
import TransportDeck.Proofs.Reference.Naming

/-!
The order of references. A surface is looked up once for each region that mentions it, at its first
place there, and so is a tally bin; the universes of a fill come in ascending order, each once. All
other references are looked up as often as they are written.
-/

namespace TransportDeck

/-- The members of a list, each once, as they first come up in it. -/
def FirstPlaces {α : Type} [BEq α] (occurrences members : List α) : Prop :=
  (members.Pairwise fun a b => occurrences.idxOf a < occurrences.idxOf b) ∧
    ∀ a, a ∈ members ↔ a ∈ occurrences

def AscendingMembers (occurrences members : List Nat) : Prop :=
  members.Pairwise (· < ·) ∧ ∀ n, n ∈ members ↔ n ∈ occurrences

def transformNumbers (specs : List TransformSpec) : List Nat :=
  specs.filterMap fun spec => match spec with
    | .reference n => some n
    | .inlined .. => none

def Cell.NamesInTurn (c : Cell) (names : List Reference) : Prop :=
  ∃ surfaces universes,
    FirstPlaces c.region.surfaceIds surfaces ∧
    AscendingMembers (FillGraph.fillTargets c) universes ∧
    names = surfaces.map (.regionSurface c.number) ++
      c.region.complements.map (.complement c.number) ++
      ([c.material].filter (· ≠ 0)).map (.cellMaterial c.number) ++
      (transformNumbers c.params.transform.toList).map (.cellTransform c.number) ++
      universes.map (.fillUniverse c.number) ++
      (transformNumbers (c.params.fill.toList.flatMap Fill.transforms)).map (.fillTransform c.number)

def Surface.NamesInTurn (s : Surface) (names : List Reference) : Prop :=
  names = (s.transform.toList.filter (0 < ·)).map (fun n => .surfaceTransform s.number n.natAbs) ++
    (s.transform.toList.filter (· < 0)).map (fun n => .periodicPartner s.number n.natAbs)

inductive DataCard.NamesInTurn (card : DataCard) : List Reference → Prop
  | thermal {t : Thermal} : card.payload = .thermal t →
      card.NamesInTurn [.thermalMaterial t.material]
  | tally {t : Tally} {bins : List TallyRef} : card.payload = .tally t → FirstPlaces t.bins bins →
      card.NamesInTurn (bins.filterMap (TallyRef.reference? t.number))
  | source {groups : KeywordGroups} {named : String × List String → Option Reference} :
      card.payload = .source groups → (∀ group r, named group = some r ↔ SourceNames group r) →
      card.NamesInTurn (groups.filterMap named)
  | other : (∀ r, ¬ card.Names r) → card.NamesInTurn []

section FirstPlaces

variable {α : Type} [BEq α] [LawfulBEq α]

/-- Leaving members out does not change which of two others comes up first. -/
theorem idxOf_lt_of_filter {p : α → Bool} {a b : α} (ha : p a = true) (hb : p b = true) (l : List α)
    (h : (l.filter p).idxOf a < (l.filter p).idxOf b) : l.idxOf a < l.idxOf b := by
  induction l with
  | nil => exact absurd h (Nat.lt_irrefl _)
  | cons head rest ih =>
    by_cases hfirst : head = a
    · subst hfirst
      by_cases hsame : head = b
      · subst hsame
        exact absurd h (Nat.lt_irrefl _)
      · rw [List.idxOf_cons_self, List.idxOf_cons_ne _ hsame]
        exact Nat.succ_pos _
    · by_cases hlast : head = b
      · subst hlast
        rw [List.filter_cons_of_pos hb, List.idxOf_cons_self] at h
        exact absurd h (Nat.not_lt_zero _)
      · rw [List.idxOf_cons_ne _ hfirst, List.idxOf_cons_ne _ hlast]
        apply Nat.succ_lt_succ
        apply ih
        by_cases hhead : p head = true
        · rw [List.filter_cons_of_pos hhead, List.idxOf_cons_ne _ hfirst,
            List.idxOf_cons_ne _ hlast] at h
          exact Nat.lt_of_succ_lt_succ h
        · rwa [List.filter_cons_of_neg hhead] at h

theorem pairwise_idxOf_eraseDups : ∀ l : List α,
    l.eraseDups.Pairwise fun a b => l.idxOf a < l.idxOf b
  | [] => .nil
  | head :: rest => by
    have hlater := pairwise_idxOf_eraseDups (rest.filter fun b => !b == head)
    have hother {a : α} (ha : a ∈ (rest.filter fun b => !b == head).eraseDups) :
        (!a == head) = true ∧ head ≠ a := by
      have hne := (List.mem_filter.mp (List.mem_eraseDups.mp ha)).2
      refine ⟨hne, ?_⟩
      rintro rfl
      simp at hne
    rw [List.eraseDups_cons, List.pairwise_cons]
    constructor
    · intro a ha
      rw [List.idxOf_cons_self, List.idxOf_cons_ne _ (hother ha).2]
      exact Nat.succ_pos _
    · refine hlater.imp_of_mem fun {a b} ha hb h => ?_
      rw [List.idxOf_cons_ne _ (hother ha).2, List.idxOf_cons_ne _ (hother hb).2]
      apply Nat.succ_lt_succ
      exact idxOf_lt_of_filter (p := fun b => !b == head) (hother ha).1 (hother hb).1 rest h
termination_by l => l.length
decreasing_by exact Nat.lt_succ_of_le (List.length_filter_le ..)

theorem firstPlaces_eraseDups (l : List α) : FirstPlaces l l.eraseDups :=
  ⟨pairwise_idxOf_eraseDups l, fun _ => List.mem_eraseDups⟩

end FirstPlaces

theorem ascendingMembers_sortDistinct (ns : List Nat) : AscendingMembers ns (sortDistinct ns) :=
  ⟨pairwise_sortDistinct ns, fun _ => mem_sortDistinct⟩

theorem filterMap_reference? (specs : List TransformSpec) :
    specs.filterMap (·.reference?) = transformNumbers specs :=
  rfl

theorem Cell.namesInTurn_references (c : Cell) : c.NamesInTurn c.references := by
  refine ⟨c.region.surfaceIds.eraseDups, sortDistinct (FillGraph.fillTargets c),
    firstPlaces_eraseDups _, ascendingMembers_sortDistinct _, ?_⟩
  have hmaterial : (if c.material = 0 then [] else [Reference.cellMaterial c.number c.material]) =
      ([c.material].filter (· ≠ 0)).map (.cellMaterial c.number) := by
    by_cases hvoid : c.material = 0 <;> simp [hvoid]
  have htransform : (c.params.transform.bind (·.reference?)).toList =
      transformNumbers c.params.transform.toList := by
    rw [← filterMap_reference?]
    cases c.params.transform with
    | none => rfl
    | some spec => cases spec <;> rfl
  unfold references FillGraph.fillTargets
  rw [hmaterial, htransform]
  cases c.params.fill with
  | none =>
    have hnone : sortDistinct ([] : List Nat) = [] := rfl
    simp [transformNumbers, hnone]
  | some f => simp [filterMap_reference?]

theorem Surface.namesInTurn_references (s : Surface) : s.NamesInTurn s.references := by
  unfold NamesInTurn references transformId? periodicPartner?
  cases s.transform with
  | none => rfl
  | some n =>
    by_cases hpos : 0 < n <;> by_cases hneg : n < 0 <;> simp [Option.filter_some, hpos, hneg]

theorem DataCard.namesInTurn_references (card : DataCard) : card.NamesInTurn card.references := by
  have hother (hnone : card.references = []) : card.NamesInTurn card.references := by
    rw [hnone]
    refine .other fun r hr => ?_
    rw [← mem_references_iff, hnone] at hr
    cases hr
  cases hpayload : card.payload with
  | thermal t =>
    have hnames : card.references = [.thermalMaterial t.material] := by simp [references, hpayload]
    exact hnames ▸ .thermal hpayload
  | tally t =>
    have hnames : card.references = t.references := by simp [references, hpayload]
    exact hnames ▸ .tally hpayload (firstPlaces_eraseDups t.bins)
  | source groups =>
    have hnames : card.references = groups.filterMap sourceReference? := by
      simp [references, hpayload]
    exact hnames ▸ .source hpayload fun group r => sourceReference?_eq_some_iff
  | _ => exact hother (by simp [references, hpayload])

end TransportDeck
