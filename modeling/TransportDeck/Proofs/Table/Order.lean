import Mathlib.Data.List.Nodup
import TransportDeck.Table.Lookup

namespace TransportDeck

section Lookup

variable {κ α : Type} [BEq κ] [LawfulBEq κ]

/-- Where keys are distinct, every entry is found under its key. -/
theorem lookup_of_mem {entries : List (κ × α)} (hd : (entries.map (·.1)).Nodup) {k : κ} {a : α}
    (h : (k, a) ∈ entries) : entries.lookup k = some a := by
  induction entries with
  | nil => exact absurd h List.not_mem_nil
  | cons head rest ih =>
    obtain ⟨hnew, hrest⟩ := List.nodup_cons.mp hd
    rcases List.mem_cons.mp h with rfl | h
    · exact lookup_same rfl
    · have hkey : k ∈ rest.map (·.1) := List.mem_map_of_mem h
      have hother : k ≠ head.1 := by
        intro hsame
        rw [hsame] at hkey
        exact hnew hkey
      rw [lookup_other hother, ih hrest h]

theorem lookup_perm {entries entries' : List (κ × α)} (hperm : entries.Perm entries')
    (hd : (entries.map (·.1)).Nodup) (k : κ) : entries.lookup k = entries'.lookup k := by
  have hkeys : k ∈ entries.map (·.1) ↔ k ∈ entries'.map (·.1) := (hperm.map _).mem_iff
  cases hfound : entries'.lookup k with
  | none =>
    have hnone : ¬ ∃ a, entries'.lookup k = some a := by simp [hfound]
    rw [exists_lookup_iff, ← hkeys, ← exists_lookup_iff] at hnone
    exact Option.eq_none_iff_forall_ne_some.mpr fun a ha => hnone ⟨a, ha⟩
  | some a =>
    obtain ⟨before, after, hentries, _⟩ := List.lookup_eq_some_iff.mp hfound
    have hmem : (k, a) ∈ entries' := by simp [hentries]
    exact lookup_of_mem hd (hperm.mem_iff.mpr hmem)

end Lookup

section Order

variable {κ α : Type} [LT κ] [StrictOrder κ]

/-- Ascending lists with the same members are equal. -/
theorem eq_of_ascending {α : Type} (key : α → κ) {as bs : List α}
    (has : as.Pairwise fun a b => key a < key b) (hbs : bs.Pairwise fun a b => key a < key b)
    (h : ∀ a, a ∈ as ↔ a ∈ bs) : as = bs := by
  have hdistinct {cs : List α} (hcs : cs.Pairwise fun a b => key a < key b) : cs.Nodup := by
    refine hcs.imp ?_
    rintro a _ hlt rfl
    exact StrictOrder.irrefl (key a) hlt
  have hperm : as.Perm bs := (List.perm_ext_iff_of_nodup (hdistinct has) (hdistinct hbs)).mpr h
  refine List.Perm.eq_of_pairwise (fun a b _ _ hab hba => ?_) has hbs hperm
  exact absurd (StrictOrder.trans hab hba) (StrictOrder.irrefl _)

/-- Tables in which the same is found are equal. -/
theorem Table.ext_find? [BEq κ] [LawfulBEq κ] {t t' : Table κ α}
    (h : ∀ k, t.find? k = t'.find? k) : t = t' := by
  have hentries : t.entries = t'.entries := by
    refine eq_of_ascending Prod.fst t.ascending t'.ascending fun e => ?_
    rw [← Table.find?_eq_some_iff_mem, h, Table.find?_eq_some_iff_mem]
  cases t
  cases t'
  cases hentries
  rfl

variable [DecidableLT κ]

theorem entries_tabulate (ks : List κ) (f : κ → α) :
    (tabulate ks f).entries = (sortDistinct ks).map fun k => (k, f k) := by
  rw [tabulate, Table.mapValues, sortDistinct, Table.keys, List.map_map]
  rfl

variable [BEq κ] [LawfulBEq κ]

theorem Table.ofList_perm {entries entries' : List (κ × α)} (hperm : entries.Perm entries')
    (hd : (entries.map (·.1)).Nodup) : Table.ofList entries = Table.ofList entries' := by
  refine Table.ext_find? fun k => ?_
  rw [Table.find?_ofList, Table.find?_ofList, lookup_perm hperm hd]

theorem sortDistinct_congr {ks ks' : List κ} (h : ∀ k, k ∈ ks ↔ k ∈ ks') :
    sortDistinct ks = sortDistinct ks' := by
  refine eq_of_ascending id (pairwise_sortDistinct ks) (pairwise_sortDistinct ks') fun k => ?_
  rw [mem_sortDistinct, mem_sortDistinct, h]

theorem tabulate_congr {ks ks' : List κ} {f g : κ → α} (h : ∀ k, k ∈ ks ↔ k ∈ ks')
    (hfg : ∀ k, f k = g k) : tabulate ks f = tabulate ks' g := by
  refine Table.ext_find? fun k => ?_
  by_cases hk : k ∈ ks
  · rw [find?_tabulate f hk, find?_tabulate g ((h k).mp hk), hfg]
  · rw [find?_tabulate_of_not_mem f hk, find?_tabulate_of_not_mem g (mt (h k).mpr hk)]

end Order

def Table.Reordered {κ α : Type} [LT κ] (t t' : Table κ (List α)) : Prop :=
  List.Forall₂ (fun e e' => e.1 = e'.1 ∧ e.2.Perm e'.2) t.entries t'.entries

theorem Table.Reordered.keys_eq {κ α : Type} [LT κ] {t t' : Table κ (List α)}
    (h : t.Reordered t') : t.keys = t'.keys := by
  unfold Reordered at h
  rw [keys, keys]
  generalize t.entries = entries at h
  generalize t'.entries = entries' at h
  induction h with
  | nil => rfl
  | cons hsame _ ih => rw [List.map_cons, List.map_cons, hsame.1, ih]

theorem reordered_tabulate {κ α : Type} [LT κ] [DecidableLT κ] [StrictOrder κ] [BEq κ] [LawfulBEq κ]
    {ks ks' : List κ} {f g : κ → List α} (h : ∀ k, k ∈ ks ↔ k ∈ ks')
    (hfg : ∀ k, (f k).Perm (g k)) : (tabulate ks f).Reordered (tabulate ks' g) := by
  rw [Table.Reordered, entries_tabulate, entries_tabulate, sortDistinct_congr h,
    List.forall₂_map_left_iff, List.forall₂_map_right_iff, List.forall₂_same]
  exact fun k _ => ⟨rfl, hfg k⟩

end TransportDeck
