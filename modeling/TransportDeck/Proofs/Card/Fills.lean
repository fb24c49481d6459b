import TransportDeck.Card.Fill
import TransportDeck.Proofs.Fill.Positions
import TransportDeck.Proofs.Number.ShorthandTokens
import TransportDeck.Proofs.Reading.CellCards

namespace TransportDeck

open Number

def Fill.IsWord : Fill → Prop
  | .simple u _ => fitsInt32 u = true
  | .array a => (∀ e ∈ a.entries, fitsInt32 e.signedUniverse = true) ∧ ∀ r ∈ a.ranges, r.IsWord

structure Fill.Within (n : Nat) (f : Fill) : Prop where
  word : f.IsWord
  length_le : f.targets.length ≤ n

theorem Fill.Within.mono {m n : Nat} {f : Fill} (h : f.Within m) (hle : m ≤ n) : f.Within n :=
  ⟨h.word, Nat.le_trans h.length_le hle⟩

namespace Card

theorem fits_of_readInt32? {token : String} {n : Int} (h : readInt32? token = some n) :
    fitsInt32 n = true :=
  (Option.filter_eq_some_iff.mp h).2

theorem fits_of_readInt32 {token : String} {n : Int} (h : readInt32 token = .ok n) :
    fitsInt32 n = true :=
  fits_of_readInt32? (orFault_eq_ok.mp h)

section Ranges

variable {values : List String}

theorem fits_of_readRange? {token : String} {range : Int × Int} (h : readRange? token = some range) :
    fitsInt32 range.1 = true ∧ fitsInt32 range.2 = true := by
  unfold readRange? at h
  split at h
  · split at h
    · split at h
      · next hfits =>
        rw [← Option.some.inj h]
        exact Bool.and_eq_true_iff.mp hfits
      · cases h
    · cases h
  · cases h

theorem isWord_of_mem_leadingRanges {range : Int × Int} (h : range ∈ leadingRanges values) :
    (⟨range.1, range.2⟩ : IndexRange).IsWord := by
  obtain ⟨found, hfound, hrange⟩ := List.mem_filterMap.mp h
  obtain ⟨token, _, htoken⟩ := List.mem_map.mp ((List.takeWhile_sublist _).subset hfound)
  obtain ⟨hlow, hhigh⟩ := fits_of_readRange? (htoken.trans hrange)
  exact ⟨hlow, hhigh⟩

theorem length_leadingRanges_le (values : List String) :
    (leadingRanges values).length ≤ values.length :=
  calc (leadingRanges values).length
      ≤ (((values.take 3).map readRange?).takeWhile Option.isSome).length :=
        List.length_filterMap_le _ _
    _ ≤ ((values.take 3).map readRange?).length := (List.takeWhile_sublist _).length_le
    _ ≤ values.length := by
        rw [List.length_map]
        exact (List.take_sublist 3 values).length_le

end Ranges

section Entries

variable {limit extra : Nat} {entries more : List FillEntry} {token : String}

theorem repeatEntry_eq_ok_iff {n : Nat} : repeatEntry limit token n entries = .ok more ↔
    ∃ last earlier, entries = last :: earlier ∧ entries.length + n ≤ limit ∧
      more = List.replicate n last ++ entries := by
  cases entries with
  | nil => simp [repeatEntry]
  | cons last earlier =>
    rw [repeatEntry]
    split <;> simp_all [eq_comm]

/-- A token adds the universe that it writes, or copies of the last entry within the limit. -/
theorem pushEntry_eq_ok_iff : pushEntry limit token entries = .ok more ↔
    (∃ u, readInt32? token = some u ∧ more = { signedUniverse := u } :: entries) ∨
    ∃ n last earlier, Shorthand.read? token = some (.copies n) ∧ entries = last :: earlier ∧
      entries.length + n ≤ limit ∧ more = List.replicate n last ++ entries := by
  unfold pushEntry
  cases hnumber : readInt32? token with
  | some u =>
    have hrepeat (n : Nat) : Shorthand.read? token ≠ some (.copies n) := by
      intro h
      rw [Shorthand.readInt32?_eq_none h] at hnumber
      cases hnumber
    simp [hrepeat, eq_comm]
  | none =>
    cases hread : Shorthand.read? token with
    | none => simp
    | some s => cases s <;> simp [repeatEntry_eq_ok_iff]

structure EntriesWithin (limit extra : Nat) (entries : List FillEntry) : Prop where
  words : ∀ e ∈ entries, fitsInt32 e.signedUniverse = true
  length_le : entries.length ≤ limit + extra

theorem EntriesWithin.push (h : EntriesWithin limit extra entries)
    (hpush : pushEntry limit token entries = .ok more) : EntriesWithin limit (extra + 1) more := by
  rcases pushEntry_eq_ok_iff.mp hpush with ⟨u, hu, rfl⟩ | ⟨n, last, earlier, -, rfl, hfits, rfl⟩
  · refine ⟨List.forall_mem_cons.mpr ⟨fits_of_readInt32? hu, h.words⟩, ?_⟩
    have hle := h.length_le
    rw [List.length_cons]
    omega
  · refine ⟨List.forall_mem_append.mpr ⟨fun e he => ?_, h.words⟩, ?_⟩
    · rw [List.eq_of_mem_replicate he]
      exact h.words last List.mem_cons_self
    · rw [List.length_append, List.length_replicate]
      omega

theorem EntriesWithin.transform {spec : TransformSpec} (h : EntriesWithin limit extra entries)
    (hlast : transformLast spec entries = .ok more) : EntriesWithin limit extra more := by
  cases entries with
  | nil => cases hlast
  | cons last earlier =>
    cases hlast
    obtain ⟨hfirst, hrest⟩ := List.forall_mem_cons.mp h.words
    exact ⟨List.forall_mem_cons.mpr ⟨hfirst, hrest⟩, h.length_le⟩

/-- Every token adds one entry past the limit at most. -/
theorem EntriesWithin.run {degrees : Bool} {ts : List String} {result : List FillEntry}
    (h : EntriesWithin limit extra entries)
    (hread : readEntries degrees limit entries ts = .ok result) :
    EntriesWithin limit (extra + ts.length) result := by
  fun_induction readEntries degrees limit entries ts generalizing extra with
  | case1 entries =>
    cases hread
    exact h
  | case2 => cases hread
  | case3 entries rest close after hclosed ih =>
    obtain ⟨spec, _, hread⟩ := bind_eq_ok.mp hread
    obtain ⟨changed, hlast, hread⟩ := bind_eq_ok.mp hread
    obtain ⟨hwords, hle⟩ := ih changed (h.transform hlast) hread
    have hshort := (List.dropWhile_sublist (· != ")") (l := rest)).length_le
    rw [hclosed, List.length_cons] at hshort
    refine ⟨hwords, ?_⟩
    rw [List.length_cons]
    omega
  | case4 entries token rest hopen ih =>
    obtain ⟨pushed, hpush, hread⟩ := bind_eq_ok.mp hread
    obtain ⟨hwords, hle⟩ := ih pushed (h.push hpush) hread
    refine ⟨hwords, ?_⟩
    rw [List.length_cons]
    omega

end Entries

section Fills

variable {degrees : Bool} {values : List String}

theorem within_readArray {a : FillArray} (h : readArray degrees values = .ok a) :
    (Fill.array a).Within (maxExpandedLength + 2 * values.length) := by
  unfold readArray at h
  split at h
  · next i j k hranges =>
    obtain ⟨entries, hentries, h⟩ := bind_eq_ok.mp h
    dsimp only at h
    split at h
    · cases h
    · cases h
      have hnone : EntriesWithin (entryLimit ⟨⟨i.1, i.2⟩, ⟨j.1, j.2⟩, ⟨k.1, k.2⟩, []⟩
          (values.drop 3).length) 0 [] := ⟨by simp, Nat.zero_le _⟩
      obtain ⟨hwords, hle⟩ := hnone.run hentries
      refine ⟨⟨fun e he => hwords e (List.mem_reverse.mp he), fun r hr => ?_⟩, ?_⟩
      · have hword := @isWord_of_mem_leadingRanges values
        rw [hranges] at hword
        simp only [FillArray.ranges, List.mem_cons, List.not_mem_nil, or_false] at hr
        rcases hr with rfl | rfl | rfl <;> exact hword (by simp)
      · simp only [Fill.targets, List.length_map, List.length_reverse]
        simp only [entryLimit, List.length_drop] at hle
        omega
  · cases h

theorem within_readFill {f : Fill} (h : readFill degrees values = .ok f) :
    f.Within (maxExpandedLength + 2 * values.length) := by
  unfold readFill at h
  split at h
  · cases h
  · split at h
    · obtain ⟨a, harray, rfl⟩ := map_eq_ok.mp h
      exact within_readArray harray
    · obtain ⟨u, hu, h⟩ := bind_eq_ok.mp h
      obtain ⟨transform, _, h⟩ := bind_eq_ok.mp h
      cases h
      refine ⟨fits_of_readInt32 hu, ?_⟩
      simp only [Fill.targets, List.length_singleton, maxExpandedLength]
      omega

end Fills

end Card

end TransportDeck
