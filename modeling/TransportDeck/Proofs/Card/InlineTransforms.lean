import TransportDeck.Proofs.Card.Params
import TransportDeck.Proofs.Card.WrittenOut
import TransportDeck.Proofs.Like.Expand

/-!
Transformations written inline on cells. Their entries are checked once, where they are read, and the
entries that pass go unchanged through repeats, settings and bases; so every transformation of a deck
can be used.
-/

namespace TransportDeck

/-- Inline entries give a transformation; a reference leaves that to its card. -/
def TransformSpec.Usable (spec : TransformSpec) : Prop :=
  ∀ values degrees, spec = .inlined values degrees →
    ∃ t, Transform.ofValues? 0 values degrees = some t

/-- Only lists of three, twelve or thirteen entries give a transformation. -/
theorem Transform.length_of_ofValues? {number : Nat} {values : List Float} {degrees : Bool}
    {t : Transform} (h : ofValues? number values degrees = some t) :
    values.length ∈ [3, 12, 13] := by
  unfold ofValues? at h
  split at h
  · simp
  · simp
  · simp
  · cases h

def Fill.Usable (f : Fill) : Prop :=
  ∀ spec ∈ f.transforms, spec.Usable

structure CellParams.Usable (p : CellParams) : Prop where
  transform : ∀ spec ∈ p.transform, spec.Usable
  fill : ∀ f ∈ p.fill, f.Usable

theorem CellParams.Usable.empty : CellParams.Usable {} := ⟨nofun, nofun⟩

theorem CellParams.Usable.overlay {lower upper : CellParams} (hlower : lower.Usable)
    (hupper : upper.Usable) : (lower.overlay upper).Usable :=
  ⟨forall_mem_layers hupper.transform hlower.transform, forall_mem_layers hupper.fill hlower.fill⟩

namespace Card

variable {degrees : Bool}

section Specs

variable {ts : List String} {spec : TransformSpec}

theorem usable_of_readReference {token : String} (h : .reference <$> readId token = .ok spec) :
    spec.Usable := by
  obtain ⟨number, _, rfl⟩ := map_eq_ok.mp h
  exact nofun

theorem usable_of_readInlined (h : readInlined degrees ts = .ok spec) : spec.Usable := by
  unfold readInlined at h
  split at h
  · exact usable_of_readReference h
  · obtain ⟨values, _, h⟩ := bind_eq_ok.mp h
    obtain ⟨t, hcheck, h⟩ := bind_eq_ok.mp h
    cases h
    unfold checkedTransform at hcheck
    split at hcheck
    · rintro _ _ ⟨⟩
      exact ⟨t, orFault_eq_ok.mp hcheck⟩
    · cases hcheck

theorem usable_of_readTransformSpec (h : readTransformSpec degrees ts = .ok spec) :
    spec.Usable := by
  unfold readTransformSpec at h
  split at h
  · exact usable_of_readReference h
  · split at h
    · exact usable_of_readInlined h
    · cases h
  · cases h

end Specs

section Fills

variable {limit : Nat} {entries result : List FillEntry} {values : List String}

def EntriesUsable (entries : List FillEntry) : Prop :=
  ∀ e ∈ entries, ∀ spec ∈ e.transform, spec.Usable

/-- Copies share the transformation of the entry that they repeat. -/
theorem EntriesUsable.run {ts : List String} (hrun : EntryRun degrees limit entries ts result)
    (h : EntriesUsable entries) : EntriesUsable result := by
  -- entries are collected with the latest in front, so copies and transformations find theirs there
  induction hrun with
  | done => exact h
  | target number others ih => exact ih (List.forall_mem_cons.mpr ⟨nofun, h⟩)
  | copies shorthand fits others ih =>
    refine ih (List.forall_mem_append.mpr ⟨fun e he => ?_, h⟩)
    rw [List.eq_of_mem_replicate he]
    exact h _ List.mem_cons_self
  | transform closed read others ih =>
    refine ih (List.forall_mem_cons.mpr ⟨?_, (List.forall_mem_cons.mp h).2⟩)
    rintro _ ⟨⟩
    exact usable_of_readTransformSpec read

theorem usable_of_readArray {a : FillArray} (h : readArray degrees values = .ok a) :
    (Fill.array a).Usable := by
  unfold readArray at h
  split at h
  · obtain ⟨entries, hentries, h⟩ := bind_eq_ok.mp h
    dsimp only at h
    split at h
    · cases h
    · cases h
      have husable : EntriesUsable entries := EntriesUsable.run (readEntries_eq_ok_iff.mp hentries) nofun
      intro spec hspec
      obtain ⟨e, he, htransform⟩ := List.mem_filterMap.mp hspec
      exact husable e (List.mem_reverse.mp he) spec htransform
  · cases h

theorem usable_of_readFillTransform {transform : Option TransformSpec}
    (h : readFillTransform degrees values = .ok transform) : ∀ spec ∈ transform, spec.Usable := by
  unfold readFillTransform at h
  split at h
  · cases h
    exact fun spec hspec => absurd hspec (Option.not_mem_none spec)
  · split at h
    · obtain ⟨spec, hread, rfl⟩ := map_eq_ok.mp h
      rintro _ ⟨⟩
      exact usable_of_readTransformSpec hread
    · cases h

theorem usable_of_readFill {f : Fill} (h : readFill degrees values = .ok f) : f.Usable := by
  unfold readFill at h
  split at h
  · cases h
  · split at h
    · obtain ⟨a, harray, rfl⟩ := map_eq_ok.mp h
      exact usable_of_readArray harray
    · obtain ⟨u, _, h⟩ := bind_eq_ok.mp h
      obtain ⟨transform, htransform, h⟩ := bind_eq_ok.mp h
      cases h
      exact fun spec hspec => usable_of_readFillTransform htransform spec (Option.mem_toList.mp hspec)

end Fills

section Settings

variable {keyword : String} {values : List String} {s : Setting}

def Setting.Usable : Setting → Prop
  | fill f => f.Usable
  | transform spec => spec.Usable
  | _ => True

theorem Setting.Usable.apply (h : s.Usable) {p : CellParams} (hp : p.Usable) :
    (s.apply p).Usable := by
  cases s with
  | fill f => exact ⟨hp.transform, fun g hg => Option.some.inj hg ▸ h⟩
  | transform spec => exact ⟨fun other hother => Option.some.inj hother ▸ h, hp.fill⟩
  | _ => exact ⟨hp.transform, hp.fill⟩

theorem usable_of_gives (h : Gives keyword values s) : s.Usable := by
  cases h with
  | fill degrees name read => exact usable_of_readFill read
  | transform degrees name read => exact usable_of_readTransformSpec read
  | _ => trivial

theorem usable_readParams (ts : List String) : (readParams ts).1.Usable :=
  readParams_induction .empty fun _ _ _ hgives _ hp => (usable_of_gives hgives).apply hp

end Settings

end Card

namespace Reading

theorem usable_ofBlocks {blocks : Blocks} :
    ∀ c ∈ (Reading.ofBlocks blocks).deck.cells, c.params.Usable := by
  refine forall_cells (Blocks.forall_writtenCells (fun c span hc => hc) ?_)
    (fun base own hbase hown => hbase.overlay hown) ?_
  · intro card _ c issues hread
    obtain ⟨_, _, _, _, hform⟩ := Card.form_of_readCell hread
    cases hform with
    | like => exact Card.usable_readParams _
    | full => exact Card.usable_readParams _
  · intro c hc
    rw [Cell.settle_eq]
    exact ⟨hc.transform, hc.fill⟩

end Reading

end TransportDeck
