import TransportDeck.Proofs.Like.Links
import TransportDeck.Proofs.Like.Nearest
import TransportDeck.Proofs.Reading.Reports

namespace TransportDeck

open Relation

variable {cells chain : List Cell} {root c : Cell} {n m : Nat}

/-- One step along the bases, with the pool, the cells on the way and the number to look for. -/
inductive LikeStep : List Cell × List Cell × Nat → List Cell × List Cell × Nat → Prop
  | next (pool chain : List Cell) (cell : Cell) (number base : Nat)
    (hfind : (pool.find? fun c => c.number == number) = some cell) (hlike : cell.like = some base) :
    LikeStep (pool, chain, number) (pool.eraseP (fun c => c.number == number), cell :: chain, base)

theorem wellFounded_likeStep : WellFounded fun after before => LikeStep before after := by
  have hless {before after : List Cell × List Cell × Nat} (h : LikeStep before after) :
      after.1.length < before.1.length := by
    cases h with
    | next pool chain cell number base hfind =>
      have hmem := List.mem_of_find?_eq_some hfind
      rw [List.length_eraseP_of_mem hmem (List.find?_some hfind)]
      exact Nat.sub_lt (List.length_pos_of_mem hmem) Nat.one_pos
  exact Subrelation.wf hless (measure fun s : List Cell × List Cell × Nat => s.1.length).wf

/-- Following the bases runs through these steps, and ends where there is no further one. -/
theorem followLike_steps (pool above : List Cell) (number : Nat) :
    ∃ rest way last, ReflTransGen LikeStep (pool, above, number) (rest, way, last) ∧
      followLike pool above number = followLike rest way last ∧
      ∀ s, ¬ LikeStep (rest, way, last) s := by
  induction pool, above, number using followLike.induct with
  | case1 pool above number hfind _ | case2 pool above number hfind _ =>
    refine ⟨pool, above, number, .refl, rfl, ?_⟩
    rintro s ⟨_, _, cell, _, _, hsome⟩
    rw [hfind] at hsome
    cases hsome
  | case3 pool above number cell hfind hfull =>
    refine ⟨pool, above, number, .refl, rfl, ?_⟩
    rintro s ⟨_, _, cell', _, base, hsome, hlike⟩
    obtain rfl := Option.some.inj (hfind.symm.trans hsome)
    rw [hfull] at hlike
    cases hlike
  | case4 pool above number cell hfind base hlike ih =>
    obtain ⟨rest, way, last, hsteps, hsame, hend⟩ := ih
    refine ⟨rest, way, last, .head (.next pool above cell number base hfind hlike) hsteps, ?_, hend⟩
    rw [followLike, hfind]
    simp only [hlike]
    exact hsame

theorem leads_of_followLike_self (hd : (cells.map (·.number)).Nodup) (n : Nat) :
    (∀ m, followLike cells [] n = .missing m → LeadsToMissing cells n m) ∧
      (∀ numbers, followLike cells [] n = .loop numbers → LeadsIntoLoop cells n) :=
  leads_of_followLike hd (fun _ hc => .inl hc) (List.Subset.refl cells)
    fun _ hc => absurd hc List.not_mem_nil

theorem followLike_missing_iff (hd : (cells.map (·.number)).Nodup) (hc : c ∈ cells) :
    followLike cells [] c.number = .missing m ↔ LeadsToMissing cells c.number m := by
  have ⟨hmissing, hloop⟩ := leads_of_followLike_self hd c.number
  refine ⟨hmissing m, fun h => ?_⟩
  cases hfollow : followLike cells [] c.number with
  | complete chain root =>
    exact absurd h (((followLike_complete_iff hd hc).mp hfollow).not_missing hd)
  | missing number => rw [(hmissing number hfollow).unique hd h]
  | loop numbers => exact absurd (hloop numbers hfollow) (h.not_loop hd)

theorem exists_followLike_loop_iff (hd : (cells.map (·.number)).Nodup) (hc : c ∈ cells) :
    (∃ numbers, followLike cells [] c.number = .loop numbers) ↔ LeadsIntoLoop cells c.number := by
  have ⟨hmissing, hloop⟩ := leads_of_followLike_self hd c.number
  refine ⟨fun ⟨numbers, h⟩ => hloop numbers h, fun h => ?_⟩
  cases hfollow : followLike cells [] c.number with
  | complete chain root =>
    exact absurd h (((followLike_complete_iff hd hc).mp hfollow).not_loop hd)
  | missing number => exact absurd h ((hmissing number hfollow).not_loop hd)
  | loop numbers => exact ⟨numbers, rfl⟩

theorem exists_end (hd : (cells.map (·.number)).Nodup) (hc : c ∈ cells) :
    (∃ m, LeadsToMissing cells c.number m) ∨ LeadsIntoLoop cells c.number ∨
      ∃ root chain, IsLikeChain cells root chain c := by
  have ⟨hmissing, hloop⟩ := leads_of_followLike_self hd c.number
  cases hfollow : followLike cells [] c.number with
  | complete chain root =>
    exact .inr (.inr ⟨root, chain, (followLike_complete_iff hd hc).mp hfollow⟩)
  | missing number => exact .inl ⟨number, hmissing number hfollow⟩
  | loop numbers => exact .inr (.inl (hloop numbers hfollow))

def ReportsUndefined (reports : List Diagnostic) (span : Span) (number : Nat) : Prop :=
  ∃ r, undefinedCells reports = [r] ∧ r.span = some span ∧ r.value? "cell" = some (number : Int)

/-- A cell as its chain has it: the region of the full definition, the name on its own card, and each
parameter from the nearest cell that sets it. -/
structure Cell.TakenFrom (stored c root : Cell) (chain : List Cell) : Prop where
  region : stored.region = root.region
  number : stored.number = c.number
  span : stored.span = c.span
  like : stored.like = c.like
  params : stored.params.TakenFrom (root :: chain).reverse

namespace Cell

theorem expand_missing (hd : (cells.map (·.number)).Nodup) (hc : c ∈ cells)
    (h : LeadsToMissing cells c.number m) :
    (c.expand cells).1 = c ∧ ReportsUndefined (c.expand cells).2 c.span m := by
  cases hlike : c.like with
  | none => exact absurd h ((IsLikeChain.full hc hlike).not_missing hd)
  | some base =>
    have hexpand : c.expand cells = (c, [(Finding.likeMissing c.number m).report c.span]) := by
      rw [expand, hlike]
      simp only [(followLike_missing_iff hd hc).mpr h]
    rw [hexpand]
    exact ⟨rfl, _, rfl, rfl, Finding.value?_report ..⟩

theorem expand_loop (hd : (cells.map (·.number)).Nodup) (hc : c ∈ cells)
    (h : LeadsIntoLoop cells c.number) :
    (c.expand cells).1 = c ∧ ReportsUndefined (c.expand cells).2 c.span c.number := by
  cases hlike : c.like with
  | none => exact absurd h ((IsLikeChain.full hc hlike).not_loop hd)
  | some base =>
    obtain ⟨numbers, hfollow⟩ := (exists_followLike_loop_iff hd hc).mpr h
    have hexpand : c.expand cells = (c, [(Finding.likeLoop c.number numbers).report c.span]) := by
      rw [expand, hlike]
      simp only [hfollow]
    rw [hexpand]
    exact ⟨rfl, _, rfl, rfl, Finding.value?_report ..⟩

theorem expand_complete (hd : (cells.map (·.number)).Nodup) (h : IsLikeChain cells root chain c) :
    (c.expand cells).1.TakenFrom c root chain ∧ undefinedCells (c.expand cells).2 = [] := by
  have hparams := takenFrom_foldl_overBase root chain
  cases hlike : c.like with
  | none =>
    obtain rfl := h.like_eq_none_iff.mp hlike
    obtain rfl := h.eq_root rfl
    rw [expand, hlike]
    exact ⟨⟨rfl, rfl, rfl, rfl, hparams⟩, rfl⟩
  | some base =>
    have hne : chain ≠ [] := fun hnil => by
      rw [h.like_eq_none_iff.mpr hnil] at hlike
      cases hlike
    constructor
    · obtain ⟨hnumber, hspan, hsame⟩ := expand_keeps hd h.mem
      refine ⟨?_, hnumber, hspan, hsame, ?_⟩
      · rw [expand_chain hd h hne, settle_eq]
        exact (foldl_overBase_keeps root chain).2.2
      · rw [expand_chain hd h hne]
        exact takenFrom_settle hparams
    · rw [expand, hlike]
      simp only [(followLike_complete_iff hd h.mem).mpr h]
      exact undefinedCells_issues _ _ c.span

structure HasOneEnd (cells : List Cell) (c : Cell) : Prop where
  exists_end : (∃ m, LeadsToMissing cells c.number m) ∨ LeadsIntoLoop cells c.number ∨
    ∃ root chain, IsLikeChain cells root chain c
  missing_unique : ∀ m m', LeadsToMissing cells c.number m → LeadsToMissing cells c.number m' → m = m'
  not_missing_and_loop : ∀ m, LeadsToMissing cells c.number m → ¬ LeadsIntoLoop cells c.number
  not_full_and_missing : ∀ root chain, IsLikeChain cells root chain c →
    ∀ m, ¬ LeadsToMissing cells c.number m
  not_full_and_loop : ∀ root chain, IsLikeChain cells root chain c →
    ¬ LeadsIntoLoop cells c.number

theorem hasOneEnd (hd : (cells.map (·.number)).Nodup) (hc : c ∈ cells) : c.HasOneEnd cells where
  exists_end := TransportDeck.exists_end hd hc
  missing_unique := fun _ _ h h' => h.unique hd h'
  not_missing_and_loop := fun _ h => h.not_loop hd
  not_full_and_missing := fun _ _ h _ => h.not_missing hd
  not_full_and_loop := fun _ _ h => h.not_loop hd

end Cell

/-- Bases are followed in steps that come to an end on any cells. The deck holds one cell for each that
is written, in order, and undefined cells are reported in this order, too. What is held for a cell,
and whether it is reported, depends on the one end that its bases come to. -/
theorem written_cells_by_their_end (blocks : Blocks) :
    (WellFounded fun after before => LikeStep before after) ∧
    (∀ pool above number, ∃ rest way last,
      ReflTransGen LikeStep (pool, above, number) (rest, way, last) ∧
        followLike pool above number = followLike rest way last ∧
        ∀ s, ¬ LikeStep (rest, way, last) s) ∧
    (Reading.ofBlocks blocks).deck.cells =
      blocks.writtenCells.map (fun c => (c.expand blocks.writtenCells).1) ∧
    undefinedCells (Reading.ofBlocks blocks).reports =
      blocks.writtenCells.flatMap (fun c => undefinedCells (c.expand blocks.writtenCells).2) ∧
    ∀ c ∈ blocks.writtenCells, c.HasOneEnd blocks.writtenCells ∧
      (c.like = none → c.expand blocks.writtenCells = (c, [])) ∧
      (∀ m, LeadsToMissing blocks.writtenCells c.number m →
        (c.expand blocks.writtenCells).1 = c ∧
          ReportsUndefined (c.expand blocks.writtenCells).2 c.span m) ∧
      (LeadsIntoLoop blocks.writtenCells c.number →
        (c.expand blocks.writtenCells).1 = c ∧
          ReportsUndefined (c.expand blocks.writtenCells).2 c.span c.number) ∧
      ∀ root chain, IsLikeChain blocks.writtenCells root chain c →
        (c.expand blocks.writtenCells).1.TakenFrom c root chain ∧
          undefinedCells (c.expand blocks.writtenCells).2 = [] := by
  have hd := blocks.nodup_number_writtenCells
  refine ⟨wellFounded_likeStep, followLike_steps, Reading.cells_ofBlocks blocks,
    undefinedCells_ofBlocks blocks, fun c hc => ⟨Cell.hasOneEnd hd hc, ?_, ?_, ?_, ?_⟩⟩
  · intro hfull
    rw [Cell.expand, hfull]
  · exact fun m h => Cell.expand_missing hd hc h
  · exact fun h => Cell.expand_loop hd hc h
  · exact fun root chain h => Cell.expand_complete hd h

def allEnds : Blocks where
  title := ""
  titleLine := 1
  messages := []
  cells := ["1 0 -1 u=2 vol=5", "2 like 1 but u=3", "3 like 9 but u=1", "4 like 5 but u=1",
    "5 like 5 but u=1"].map fun text => { text, span := .zero, comments := [] }
  surfaces := []
  data := []

theorem ends_of_allEnds : ∃ full upper astray looping self,
    allEnds.writtenCells = [full, upper, astray, looping, self] ∧
    full.expand allEnds.writtenCells = (full, []) ∧
    (upper.expand allEnds.writtenCells).1.TakenFrom upper full [upper] ∧
    undefinedCells (upper.expand allEnds.writtenCells).2 = [] ∧
    (astray.expand allEnds.writtenCells).1 = astray ∧
    ReportsUndefined (astray.expand allEnds.writtenCells).2 astray.span 9 ∧
    (looping.expand allEnds.writtenCells).1 = looping ∧
    ReportsUndefined (looping.expand allEnds.writtenCells).2 looping.span 4 := by
  have hnames : allEnds.writtenCells.map (fun c => (c.number, c.like)) =
      [(1, none), (2, some 1), (3, some 9), (4, some 5), (5, some 5)] := by decide +kernel
  simp only [List.map_eq_cons_iff, List.map_eq_nil_iff, Prod.mk.injEq] at hnames
  obtain ⟨full, _, hcells, ⟨hfull, hfullLike⟩, upper, _, rfl, ⟨hupper, hupperLike⟩, astray, _, rfl,
    ⟨hastray, hastrayLike⟩, looping, _, rfl, ⟨hlooping, hloopingLike⟩, self, _, rfl,
    ⟨hself, hselfLike⟩, rfl⟩ := hnames
  have hends := (written_cells_by_their_end allEnds).2.2.2.2
  have hmissing : LeadsToMissing allEnds.writtenCells astray.number 9 := by
    refine ⟨.single ⟨astray, by simp [hcells], rfl, hastrayLike⟩, ?_⟩
    simp [hcells, hfull, hupper, hastray, hlooping, hself]
  have hloop : LeadsIntoLoop allEnds.writtenCells looping.number := by
    refine ⟨5, .single ⟨looping, by simp [hcells], rfl, hloopingLike⟩, .single ?_⟩
    exact ⟨self, by simp [hcells], hself, hselfLike⟩
  have hchain : IsLikeChain allEnds.writtenCells full [upper] upper :=
    .like (.full (by simp [hcells]) hfullLike) (by simp [hcells]) (by rw [hupperLike, hfull])
  have ⟨_, hsame, _⟩ := hends full (by simp [hcells])
  have ⟨_, _, _, _, htaken⟩ := hends upper (by simp [hcells])
  have ⟨_, _, hstays, _⟩ := hends astray (by simp [hcells])
  have ⟨_, _, _, hloops, _⟩ := hends looping (by simp [hcells])
  rw [← hlooping]
  exact ⟨full, upper, astray, looping, self, hcells, hsame hfullLike, (htaken full [upper] hchain).1,
    (htaken full [upper] hchain).2, (hstays 9 hmissing).1, (hstays 9 hmissing).2, (hloops hloop).1,
    (hloops hloop).2⟩

end TransportDeck
