import TransportDeck.Table

namespace TransportDeck

section Entries

variable {κ α β : Type} [BEq κ] [LawfulBEq κ]

theorem lookup_same {k : κ} {e : κ × α} {rest : List (κ × α)} (h : k = e.1) :
    (e :: rest).lookup k = some e.2 := by
  subst h
  obtain ⟨k, a⟩ := e
  simp

theorem lookup_other {k : κ} {e : κ × α} {rest : List (κ × α)} (h : k ≠ e.1) :
    (e :: rest).lookup k = rest.lookup k := by
  obtain ⟨k', a⟩ := e
  have differs : (k == k') = false := beq_eq_false_iff_ne.mpr h
  simp [List.lookup_cons, differs]

theorem exists_lookup_iff {k : κ} {entries : List (κ × α)} :
    (∃ a, entries.lookup k = some a) ↔ k ∈ entries.map (·.1) := by
  induction entries with
  | nil => simp
  | cons head rest ih =>
    by_cases here : k = head.1
    · rw [lookup_same here]
      simp [here]
    · simp [lookup_other here, here, ih]

theorem lookup_map_values (f : κ → α → β) (k : κ) (entries : List (κ × α)) :
    (entries.map fun e => (e.1, f e.1 e.2)).lookup k = (entries.lookup k).map (f k) := by
  induction entries with
  | nil => rfl
  | cons head rest ih =>
    obtain ⟨first, a⟩ := head
    by_cases here : k = first
    · subst here
      simp
    · have differs : (k == first) = false := beq_eq_false_iff_ne.mpr here
      simp [List.lookup_cons, differs, ih]

theorem lookup_insertEntry_same [LT κ] [DecidableLT κ] [StrictOrder κ] (k : κ) (a : α)
    (entries : List (κ × α)) : (insertEntry k a entries).lookup k = some a := by
  induction entries with
  | nil => exact lookup_same rfl
  | cons head rest ih =>
    rw [insertEntry]
    split
    · exact lookup_same rfl
    · split
      case isTrue above =>
        have differs : k ≠ head.1 := fun same => StrictOrder.irrefl head.1 (same ▸ above)
        rw [lookup_other differs, ih]
      case isFalse => exact lookup_same rfl

theorem lookup_insertEntry_other [LT κ] [DecidableLT κ] [StrictOrder κ] {k k' : κ} (h : k' ≠ k)
    (a : α) (entries : List (κ × α)) :
    (insertEntry k a entries).lookup k' = entries.lookup k' := by
  induction entries with
  | nil => exact lookup_other h
  | cons head rest ih =>
    rw [insertEntry]
    split
    · exact lookup_other h
    case isFalse notBelow =>
      split
      · by_cases here : k' = head.1
        · rw [lookup_same here, lookup_same here]
        · rw [lookup_other here, lookup_other here, ih]
      case isFalse notAbove =>
        have same : k = head.1 := by
          rcases StrictOrder.tri k head.1 with below | same | above
          · exact absurd below notBelow
          · exact same
          · exact absurd above notAbove
        rw [lookup_other h, lookup_other (same ▸ h)]

end Entries

namespace Table

variable {κ α β : Type} [LT κ] [BEq κ] [LawfulBEq κ]

theorem mem_keys_iff {t : Table κ α} {k : κ} : k ∈ t.keys ↔ ∃ a, t.find? k = some a :=
  exists_lookup_iff.symm

/-- The entries are what is found at their keys. -/
theorem find?_eq_some_iff_mem [StrictOrder κ] {t : Table κ α} {k : κ} {a : α} :
    t.find? k = some a ↔ (k, a) ∈ t.entries := by
  obtain ⟨entries, ascending⟩ := t
  change entries.lookup k = some a ↔ (k, a) ∈ entries
  induction entries with
  | nil => simp
  | cons head rest ih =>
    have ⟨first, later⟩ := List.pairwise_cons.mp ascending
    rw [List.mem_cons, Prod.ext_iff]
    by_cases here : k = head.1
    · -- no later entry has the key of the first one
      have absent : (k, a) ∉ rest := fun found =>
        StrictOrder.irrefl head.1 (here ▸ first (k, a) found)
      rw [lookup_same here, Option.some.injEq, or_iff_left absent, and_iff_right here]
      exact eq_comm
    · simp [lookup_other here, ih later, here]

@[simp] theorem contains_iff_mem_keys {t : Table κ α} {k : κ} : t.contains k = true ↔ k ∈ t.keys := by
  rw [contains, mem_keys_iff, Option.isSome_iff_exists]

@[simp] theorem find?_mapValues (f : κ → α → β) (t : Table κ α) (k : κ) :
    (t.mapValues f).find? k = (t.find? k).map (f k) :=
  lookup_map_values f k t.entries

variable [DecidableLT κ] [StrictOrder κ]

@[simp] theorem find?_insert_same (t : Table κ α) (k : κ) (a : α) :
    (t.insert k a).find? k = some a :=
  lookup_insertEntry_same k a t.entries

theorem find?_insert_other (t : Table κ α) {k k' : κ} (h : k' ≠ k) (a : α) :
    (t.insert k a).find? k' = t.find? k' :=
  lookup_insertEntry_other h a t.entries

/-- Of two entries with one key the earlier is found, as in the list itself. -/
@[simp] theorem find?_ofList (entries : List (κ × α)) (k : κ) :
    (ofList entries).find? k = entries.lookup k := by
  induction entries with
  | nil => rfl
  | cons head rest ih =>
    change ((ofList rest).insert head.1 head.2).find? k = _
    by_cases here : k = head.1
    · rw [lookup_same here, here, find?_insert_same]
    · rw [lookup_other here, find?_insert_other _ here, ih]

/-- Of the entries that are stored in a table, with keys of their own, all are found there. -/
theorem find?_foldl_insert {entries : List (κ × α)} (h : entries.Pairwise fun e f => e.1 < f.1)
    (t : Table κ α) (k : κ) :
    (entries.foldl (fun t e => t.insert e.1 e.2) t).find? k = (entries.lookup k).or (t.find? k) := by
  induction entries generalizing t with
  | nil => rfl
  | cons e rest ih =>
    have ⟨first, later⟩ := List.pairwise_cons.mp h
    rw [List.foldl_cons, ih later]
    by_cases here : k = e.1
    · have absent : rest.lookup k = none := by
        refine Option.eq_none_iff_forall_ne_some.mpr fun a found => ?_
        -- a later entry of the same key would have to come after itself
        obtain ⟨f, hf, same⟩ := List.mem_map.mp (exists_lookup_iff.mp ⟨a, found⟩)
        have after := first f hf
        rw [same, here] at after
        exact StrictOrder.irrefl e.1 after
      rw [absent, lookup_same here, here, find?_insert_same]
      rfl
    · rw [find?_insert_other _ here, lookup_other here]

@[simp] theorem mem_keys_ofList {entries : List (κ × α)} {k : κ} :
    k ∈ (ofList entries).keys ↔ k ∈ entries.map (·.1) := by
  rw [mem_keys_iff, find?_ofList, exists_lookup_iff]

end Table

section Keys

variable {κ α : Type} [LT κ]

theorem Table.pairwise_keys (t : Table κ α) : t.keys.Pairwise (· < ·) :=
  List.pairwise_map.mpr t.ascending

theorem Table.nodup_keys [StrictOrder κ] (t : Table κ α) : t.keys.Nodup := by
  refine t.pairwise_keys.imp ?_
  rintro k _ below rfl
  exact StrictOrder.irrefl k below

@[simp] theorem Table.keys_mapValues {β : Type} (f : κ → α → β) (t : Table κ α) :
    (t.mapValues f).keys = t.keys := by
  simp [keys, mapValues]

variable [DecidableLT κ] [StrictOrder κ]

theorem pairwise_sortDistinct (ks : List κ) : (sortDistinct ks).Pairwise (· < ·) :=
  Table.pairwise_keys _

variable [BEq κ] [LawfulBEq κ]

@[simp] theorem mem_sortDistinct {ks : List κ} {k : κ} : k ∈ sortDistinct ks ↔ k ∈ ks := by
  simp [sortDistinct]

@[simp] theorem mem_keys_tabulate {ks : List κ} {f : κ → α} {k : κ} :
    k ∈ (tabulate ks f).keys ↔ k ∈ ks := by
  simp [tabulate]

theorem find?_tabulate {ks : List κ} {k : κ} (f : κ → α) (h : k ∈ ks) :
    (tabulate ks f).find? k = some (f k) := by
  have stored : k ∈ (ks.map fun k => (k, ())).map (·.1) := by simpa using h
  obtain ⟨_, found⟩ := exists_lookup_iff.mpr stored
  rw [tabulate, Table.find?_mapValues, Table.find?_ofList, found]
  rfl

/-- No entry is lost where the keys are distinct. -/
theorem Table.size_ofList {entries : List (κ × α)} (h : (entries.map (·.1)).Nodup) :
    (ofList entries).size = entries.length := by
  have hperm : (ofList entries).keys.Perm (entries.map (·.1)) :=
    (List.perm_ext_iff_of_nodup (nodup_keys _) h).mpr fun _ => mem_keys_ofList
  calc (ofList entries).size = (ofList entries).keys.length := (List.length_map ..).symm
    _ = (entries.map (·.1)).length := hperm.length_eq
    _ = entries.length := List.length_map ..

theorem find?_tabulate_of_not_mem {ks : List κ} {k : κ} (f : κ → α) (h : k ∉ ks) :
    (tabulate ks f).find? k = none := by
  have absent : k ∉ (tabulate ks f).keys := fun found => h (mem_keys_tabulate.mp found)
  rw [Table.mem_keys_iff] at absent
  exact Option.eq_none_iff_forall_ne_some.mpr fun a found => absent ⟨a, found⟩

end Keys

end TransportDeck
