/-!
Finite tables in ascending key order, and ascending lists without repeats. The order is part of the
value: two tables with the same entries are equal, whatever order the entries came in.
-/

namespace TransportDeck

class StrictOrder (κ : Type) [LT κ] : Prop where
  irrefl : ∀ a : κ, ¬ a < a
  trans : ∀ {a b c : κ}, a < b → b < c → a < c
  tri : ∀ a b : κ, a < b ∨ a = b ∨ b < a

instance : StrictOrder Nat where
  irrefl := Nat.lt_irrefl
  trans := Nat.lt_trans
  tri := Nat.lt_trichotomy

instance : StrictOrder String where
  irrefl := String.lt_irrefl
  trans := String.lt_trans
  tri a b := by
    by_cases hab : a < b
    · exact .inl hab
    · by_cases hba : b < a
      · exact .inr (.inr hba)
      · exact .inr (.inl (String.le_antisymm (String.not_lt.mp hba) (String.not_lt.mp hab)))

section Entries

variable {κ α : Type} [LT κ] [DecidableLT κ]

def insertEntry (k : κ) (a : α) : List (κ × α) → List (κ × α)
  | [] => [(k, a)]
  | (k', a') :: rest =>
    if k < k' then (k, a) :: (k', a') :: rest
    else if k' < k then (k', a') :: insertEntry k a rest
    else (k, a) :: rest

theorem mem_insertEntry {k : κ} {a : α} {e : κ × α} {entries : List (κ × α)}
    (h : e ∈ insertEntry k a entries) : e = (k, a) ∨ e ∈ entries := by
  induction entries with
  | nil => simpa [insertEntry] using h
  | cons head rest ih =>
    rw [insertEntry] at h
    split at h
    · simpa using h
    · split at h
      · rcases List.mem_cons.mp h with rfl | h
        · exact .inr (List.mem_cons_self ..)
        · exact (ih h).imp_right (List.mem_cons_of_mem _)
      · exact (List.mem_cons.mp h).imp_right (List.mem_cons_of_mem _)

theorem pairwise_insertEntry [StrictOrder κ] (k : κ) (a : α) {entries : List (κ × α)}
    (h : entries.Pairwise fun e f => e.1 < f.1) :
    (insertEntry k a entries).Pairwise fun e f => e.1 < f.1 := by
  induction entries with
  | nil => simp [insertEntry]
  | cons head rest ih =>
    have ⟨first, later⟩ := List.pairwise_cons.mp h
    rw [insertEntry]
    split
    case isTrue below =>
      refine List.pairwise_cons.mpr ⟨fun e he => ?_, h⟩
      rcases List.mem_cons.mp he with rfl | he
      · exact below
      · exact StrictOrder.trans below (first e he)
    case isFalse notBelow =>
      split
      case isTrue above =>
        refine List.pairwise_cons.mpr ⟨fun e he => ?_, ih later⟩
        rcases mem_insertEntry he with rfl | he
        · exact above
        · exact first e he
      case isFalse notAbove =>
        have same : k = head.1 := by
          rcases StrictOrder.tri k head.1 with h | h | h
          · exact absurd h notBelow
          · exact h
          · exact absurd h notAbove
        exact List.pairwise_cons.mpr ⟨fun e he => same ▸ first e he, later⟩

end Entries

structure Table (κ α : Type) [LT κ] where
  entries : List (κ × α)
  ascending : entries.Pairwise fun e f => e.1 < f.1

namespace Table

variable {κ α β : Type} [LT κ]

instance [DecidableEq κ] [DecidableEq α] : DecidableEq (Table κ α) := fun s t =>
  decidable_of_iff (s.entries = t.entries)
    ⟨fun h => by cases s; cases t; cases h; rfl, fun h => h ▸ rfl⟩

def empty : Table κ α := ⟨[], .nil⟩

instance : Inhabited (Table κ α) := ⟨empty⟩

def find? [BEq κ] (t : Table κ α) (k : κ) : Option α :=
  t.entries.lookup k

def contains [BEq κ] (t : Table κ α) (k : κ) : Bool :=
  (t.find? k).isSome

def keys (t : Table κ α) : List κ :=
  t.entries.map (·.1)

def values (t : Table κ α) : List α :=
  t.entries.map (·.2)

def size (t : Table κ α) : Nat :=
  t.entries.length

def isEmpty (t : Table κ α) : Bool :=
  t.entries.isEmpty

def insert [DecidableLT κ] [StrictOrder κ] (t : Table κ α) (k : κ) (a : α) : Table κ α :=
  ⟨insertEntry k a t.entries, pairwise_insertEntry k a t.ascending⟩

/-- The table of some entries; of two with one key the earlier is kept. -/
def ofList [DecidableLT κ] [StrictOrder κ] (entries : List (κ × α)) : Table κ α :=
  entries.foldr (fun e t => t.insert e.1 e.2) empty

def mapValues (f : κ → α → β) (t : Table κ α) : Table κ β :=
  ⟨t.entries.map fun e => (e.1, f e.1 e.2), List.pairwise_map.mpr t.ascending⟩

end Table

def sortDistinct {κ : Type} [LT κ] [DecidableLT κ] [StrictOrder κ] (ks : List κ) : List κ :=
  (Table.ofList (ks.map fun k => (k, ()))).keys

def tabulate {κ α : Type} [LT κ] [DecidableLT κ] [StrictOrder κ] (ks : List κ) (f : κ → α) :
    Table κ α :=
  (Table.ofList (ks.map fun k => (k, ()))).mapValues fun k _ => f k

end TransportDeck
