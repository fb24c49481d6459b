import TransportDeck.Proofs.Blocks.BlankRuns

/-!
Separators between blocks. The lines after the title fall into three blocks exactly if their first two
runs of blank lines are single lines, and a separator that is missing or too long is a fault.
-/

namespace TransportDeck

namespace Blocks

def BadlySeparated (body : List PhysicalLine) : Prop :=
  (blankRuns body).length < 2 ∨ ∃ run ∈ (blankRuns body).take 2, 2 ≤ run.length

/-- The third block goes on to a third run of blank lines or to the end of the text. -/
def LastBlock (lines data : List PhysicalLine) : Prop :=
  (∃ third ignored, FirstRun lines data third ignored) ∨ (data = lines ∧ Unbroken lines)

/-- The lines after the title as three blocks, with runs of blank lines between them. -/
inductive Layout (body cells surfaces data : List PhysicalLine) : Prop
  | intro {first second afterFirst afterSecond : List PhysicalLine} :
      FirstRun body cells first afterFirst → FirstRun afterFirst surfaces second afterSecond →
      LastBlock afterSecond data → Layout body cells surfaces data

section Separators

variable {lines before run after : List PhysicalLine} (lastLine found : Nat) (block : BlockName)

theorem takeBlock_unbroken (h : Unbroken lines) :
    takeBlock lastLine found block lines = .error (.missingBlocks lastLine found) := by
  have hnone : (lines.dropWhile fun l => !PhysicalLine.isBlank l) = [] := by
    apply List.dropWhile_eq_nil_iff.mpr
    intro l hl
    rw [h l hl]
    rfl
  simp only [takeBlock, hnone, List.takeWhile_nil]

theorem takeBlock_single (h : FirstRun lines before run after) (hsingle : run.length = 1) :
    takeBlock lastLine found block lines = .ok (before, after) := by
  obtain ⟨hbefore, htail⟩ := h.takeWhile_dropWhile
  obtain ⟨hrun, hafter⟩ := takeWhile_dropWhile_append h.blank h.maximal
  obtain ⟨blank, rfl⟩ := List.length_eq_one_iff.mp hsingle
  simp only [takeBlock, hbefore, htail, hrun, hafter]

theorem takeBlock_longRun {first second : PhysicalLine} {rest : List PhysicalLine}
    (h : FirstRun lines before (first :: second :: rest) after) :
    takeBlock lastLine found block lines =
      .error (.longSeparator (first.number + 1) (rest.length + 2) block) := by
  obtain ⟨_, htail⟩ := h.takeWhile_dropWhile
  obtain ⟨hrun, _⟩ := takeWhile_dropWhile_append h.blank h.maximal
  simp only [takeBlock, htail, hrun, List.length_cons]

theorem takeBlock_long (h : FirstRun lines before run after) (hlong : 2 ≤ run.length) :
    ∃ fault, takeBlock lastLine found block lines = .error fault ∧
      fault.code = .badBlockSeparator := by
  match run, hlong with
  | first :: second :: rest, _ => exact ⟨_, takeBlock_longRun lastLine found block h, rfl⟩

/-- A block is taken if its separator is a single line. -/
theorem takeBlock_cases (lines : List PhysicalLine) :
    ((∀ run ∈ (blankRuns lines).head?, 2 ≤ run.length) ∧
      ∃ fault, takeBlock lastLine found block lines = .error fault ∧
        fault.code = .badBlockSeparator) ∨
    ∃ before run after, FirstRun lines before run after ∧ run.length = 1 ∧
      takeBlock lastLine found block lines = .ok (before, after) := by
  rcases unbroken_or_exists_firstRun lines with hlines | ⟨before, run, after, hrun⟩
  · refine .inl ⟨?_, _, takeBlock_unbroken lastLine found block hlines, rfl⟩
    rw [hlines.blankRuns_eq_nil]
    intro run hnone
    cases hnone
  · by_cases hlong : 2 ≤ run.length
    · refine .inl ⟨?_, takeBlock_long lastLine found block hrun hlong⟩
      rw [hrun.blankRuns_eq]
      intro first hfirst
      cases hfirst
      exact hlong
    · -- a run that is not too long is a single line, as no run is empty
      have hpos := List.length_pos_of_ne_nil hrun.ne_nil
      have hsingle : run.length = 1 := by omega
      exact .inr ⟨before, run, after, hrun, hsingle, takeBlock_single lastLine found block hrun hsingle⟩

theorem exists_lastBlock (lines : List PhysicalLine) : ∃ data, LastBlock lines data := by
  rcases unbroken_or_exists_firstRun lines with h | ⟨data, third, ignored, h⟩
  · exact ⟨lines, .inr ⟨rfl, h⟩⟩
  · exact ⟨data, .inl ⟨third, ignored, h⟩⟩

theorem LastBlock.eq_takeWhile {data : List PhysicalLine} (h : LastBlock lines data) :
    data = lines.takeWhile fun l => !PhysicalLine.isBlank l := by
  rcases h with ⟨third, ignored, h⟩ | ⟨rfl, h⟩
  · exact h.takeWhile_dropWhile.1.symm
  · exact h.takeWhile_eq.symm

end Separators

def takeBlocks (lastLine : Nat) (body : List PhysicalLine) :
    Except LayoutFault (List PhysicalLine × List PhysicalLine × List PhysicalLine) := do
  let (cells, rest) ← takeBlock lastLine 1 .cells body
  let (surfaces, rest) ← takeBlock lastLine 2 .surfaces rest
  return (cells, surfaces, rest.takeWhile fun l => !PhysicalLine.isBlank l)

section Body

variable {body cells first afterFirst surfaces data : List PhysicalLine}

theorem badlySeparated_of_first (h : ∀ run ∈ (blankRuns body).head?, 2 ≤ run.length) :
    BadlySeparated body := by
  unfold BadlySeparated
  cases hruns : blankRuns body with
  | nil => exact .inl (Nat.zero_lt_two)
  | cons run rest =>
    rw [hruns] at h
    exact .inr ⟨run, List.mem_cons_self, h run rfl⟩

/-- After a first run of a single line it is the next run that counts. -/
theorem badlySeparated_iff_second (hfirst : FirstRun body cells first afterFirst)
    (hsingle : first.length = 1) :
    BadlySeparated body ↔ ∀ run ∈ (blankRuns afterFirst).head?, 2 ≤ run.length := by
  rw [BadlySeparated, hfirst.blankRuns_eq]
  cases blankRuns afterFirst with
  | nil => simp
  | cons run rest => simp [hsingle]

theorem length_eq_one_of_not_long (hfirst : FirstRun body cells first afterFirst)
    (h : ¬ ∀ run ∈ (blankRuns body).head?, 2 ≤ run.length) : first.length = 1 := by
  have hpos := List.length_pos_of_ne_nil hfirst.ne_nil
  rw [hfirst.blankRuns_eq] at h
  simp only [List.head?_cons, Option.mem_def, Option.some.injEq, forall_eq'] at h
  omega

theorem takeBlocks_of_layout (h : Layout body cells surfaces data) (hgood : ¬ BadlySeparated body)
    (lastLine : Nat) : takeBlocks lastLine body = .ok (cells, surfaces, data) := by
  obtain ⟨hfirst, hsecond, hdata⟩ := h
  have hsingle := length_eq_one_of_not_long hfirst (mt badlySeparated_of_first hgood)
  have hsingle' := length_eq_one_of_not_long hsecond
    (mt (badlySeparated_iff_second hfirst hsingle).mpr hgood)
  have hcells := takeBlock_single lastLine 1 .cells hfirst hsingle
  have hsurfaces := takeBlock_single lastLine 2 .surfaces hsecond hsingle'
  simp only [takeBlocks, hcells, hsurfaces, hdata.eq_takeWhile, bind, Except.bind, pure, Except.pure]

/-- The lines after the title are badly separated, which ends the division, or they have a layout. -/
theorem takeBlocks_error_or_layout (lastLine : Nat) (body : List PhysicalLine) :
    (BadlySeparated body ∧
      ∃ fault, takeBlocks lastLine body = .error fault ∧ fault.code = .badBlockSeparator) ∨
    (¬ BadlySeparated body ∧ ∃ cells surfaces data, Layout body cells surfaces data) := by
  rcases takeBlock_cases lastLine 1 .cells body with
    ⟨hbad, fault, hfault, hcode⟩ | ⟨cells, first, afterFirst, hfirst, hsingle, hcells⟩
  · refine .inl ⟨badlySeparated_of_first hbad, fault, ?_, hcode⟩
    simp only [takeBlocks, hfault, bind, Except.bind]
  have hsecond := badlySeparated_iff_second hfirst hsingle
  rcases takeBlock_cases lastLine 2 .surfaces afterFirst with
    ⟨hbad, fault, hfault, hcode⟩ | ⟨surfaces, second, afterSecond, hrun, hsingle', hsurfaces⟩
  · refine .inl ⟨hsecond.mpr hbad, fault, ?_, hcode⟩
    simp only [takeBlocks, hcells, hfault, bind, Except.bind]
  · obtain ⟨data, hdata⟩ := exists_lastBlock afterSecond
    refine .inr ⟨?_, cells, surfaces, data, hfirst, hrun, hdata⟩
    intro hbad
    have hlong := hsecond.mp hbad second (by rw [hrun.blankRuns_eq]; rfl)
    omega

end Body

end Blocks

end TransportDeck
