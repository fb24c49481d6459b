import TransportDeck.Proofs.Blocks.MessageBlock
import TransportDeck.Proofs.Blocks.Separators
import TransportDeck.Proofs.LogicalCard.Content

namespace TransportDeck

namespace Blocks

def Untitled (rest : List PhysicalLine) : Prop :=
  ∀ title ∈ rest.head?, title.isBlank = true

def NoContent (block : List PhysicalLine) : Prop :=
  ∀ line ∈ block, line.Contentless

/-- What becomes of a text with a title, by the lines of its three blocks. -/
structure ByBlocks (result : Except LayoutFault Blocks) (title : PhysicalLine)
    (cells surfaces data : List PhysicalLine) : Prop where
  no_cells : (∃ line, result = .error (.emptyBlock line .cells)) ↔ NoContent cells
  no_surfaces : (∃ line, result = .error (.emptyBlock line .surfaces)) ↔
    ¬ NoContent cells ∧ NoContent surfaces
  no_data : (∃ line, result = .error (.emptyBlock line .data)) ↔
    ¬ NoContent cells ∧ ¬ NoContent surfaces ∧ NoContent data
  divided : (∃ blocks, result = .ok blocks) ↔
    ¬ NoContent cells ∧ ¬ NoContent surfaces ∧ ¬ NoContent data
  contents : ∀ blocks, result = .ok blocks →
    blocks.title = String.ofList (Text.trim title.text) ∧
    (blocks.cells = LogicalCard.ofLines cells ∧ blocks.cells ≠ []) ∧
    (blocks.surfaces = LogicalCard.ofLines surfaces ∧ blocks.surfaces ≠ []) ∧
    (blocks.data = LogicalCard.ofLines data ∧ blocks.data ≠ [])

def withCards (lines : List (List Char)) (title : PhysicalLine)
    (cells surfaces data : List PhysicalLine) : Except LayoutFault Blocks := do
  let lastLine := max lines.length 1
  return {
    title := String.ofList (Text.trim title.text)
    titleLine := messageLength lines + 1
    messages := messageTexts lines
    cells := ← blockCards lastLine .cells cells
    surfaces := ← blockCards lastLine .surfaces surfaces
    data := ← blockCards lastLine .data data }

theorem blockCards_noContent {block : List PhysicalLine} (h : NoContent block) (lastLine : Nat)
    (name : BlockName) : ∃ line, blockCards lastLine name block = .error (.emptyBlock line name) := by
  have hnil : LogicalCard.ofLines block = [] := LogicalCard.ofLines_eq_nil_iff.mpr h
  refine ⟨(block.head?.map PhysicalLine.number).getD lastLine, ?_⟩
  simp only [blockCards, hnil, List.isEmpty_nil, if_true]

theorem blockCards_content {block : List PhysicalLine} (h : ¬ NoContent block) (lastLine : Nat)
    (name : BlockName) : LogicalCard.ofLines block ≠ [] ∧
      blockCards lastLine name block = .ok (LogicalCard.ofLines block) := by
  have hne : LogicalCard.ofLines block ≠ [] := mt LogicalCard.ofLines_eq_nil_iff.mp h
  refine ⟨hne, ?_⟩
  simp [blockCards, hne]

theorem byBlocks_withCards (lines : List (List Char)) (title : PhysicalLine)
    (cells surfaces data : List PhysicalLine) :
    ByBlocks (withCards lines title cells surfaces data) title cells surfaces data := by
  by_cases hcells : NoContent cells
  · obtain ⟨line, herror⟩ := blockCards_noContent hcells (max lines.length 1) .cells
    have hresult : withCards lines title cells surfaces data = .error (.emptyBlock line .cells) := by
      simp only [withCards, herror, bind, Except.bind]
    rw [hresult]
    constructor <;> simp [hcells]
  obtain ⟨hcellsNe, hcellCards⟩ := blockCards_content hcells (max lines.length 1) .cells
  by_cases hsurfaces : NoContent surfaces
  · obtain ⟨line, herror⟩ := blockCards_noContent hsurfaces (max lines.length 1) .surfaces
    have hresult : withCards lines title cells surfaces data = .error (.emptyBlock line .surfaces) := by
      simp only [withCards, hcellCards, herror, bind, Except.bind]
    rw [hresult]
    constructor <;> simp [hcells, hsurfaces]
  obtain ⟨hsurfacesNe, hsurfaceCards⟩ := blockCards_content hsurfaces (max lines.length 1) .surfaces
  by_cases hdata : NoContent data
  · obtain ⟨line, herror⟩ := blockCards_noContent hdata (max lines.length 1) .data
    have hresult : withCards lines title cells surfaces data = .error (.emptyBlock line .data) := by
      simp only [withCards, hcellCards, hsurfaceCards, herror, bind, Except.bind]
    rw [hresult]
    constructor <;> simp [hcells, hsurfaces, hdata]
  obtain ⟨hdataNe, hdataCards⟩ := blockCards_content hdata (max lines.length 1) .data
  simp only [withCards, hcellCards, hsurfaceCards, hdataCards, bind, Except.bind, pure, Except.pure]
  constructor <;> simp [hcells, hsurfaces, hdata, hcellsNe, hsurfacesNe, hdataNe]

/-- Once the blocks are found, only an empty one is a fault. -/
theorem ByBlocks.code_of_error {fault : LayoutFault} {title : PhysicalLine}
    {cells surfaces data : List PhysicalLine} (h : ByBlocks (.error fault) title cells surfaces data) :
    fault.code = .emptyBlock := by
  by_cases hcells : NoContent cells
  · obtain ⟨line, hline⟩ := h.no_cells.mpr hcells
    rw [Except.error.inj hline]
    rfl
  by_cases hsurfaces : NoContent surfaces
  · obtain ⟨line, hline⟩ := h.no_surfaces.mpr ⟨hcells, hsurfaces⟩
    rw [Except.error.inj hline]
    rfl
  by_cases hdata : NoContent data
  · obtain ⟨line, hline⟩ := h.no_data.mpr ⟨hcells, hsurfaces, hdata⟩
    rw [Except.error.inj hline]
    rfl
  obtain ⟨blocks, hblocks⟩ := h.divided.mpr ⟨hcells, hsurfaces, hdata⟩
  cases hblocks

section Title

variable {lines : List (List Char)} {rest : List PhysicalLine}

theorem map_text_numbered (lines : List (List Char)) : (numbered lines).map (·.text) = lines := by
  apply List.ext_getElem?
  intro n
  rw [numbered, List.getElem?_map, List.getElem?_mapIdx, Option.map_map]
  cases lines[n]? <;> rfl

theorem head?_drop_numbered (lines : List (List Char)) (n : Nat) :
    ((numbered lines).drop n).head? = lines[n]?.map fun text => ⟨n + 1, text⟩ := by
  rw [List.head?_drop, numbered, List.getElem?_mapIdx]

theorem ofLines_untitled (hrest : rest = (numbered lines).drop (messageLength lines))
    (h : Untitled rest) : ofLines lines = .error (.missingTitle (messageLength lines + 1)) := by
  have hhead := head?_drop_numbered lines (messageLength lines)
  rw [← hrest] at hhead
  cases hline : lines[messageLength lines]? with
  | none => simp only [ofLines, hline]
  | some text =>
    rw [hline] at hhead
    have hblank : Text.isBlankText text = true := h _ hhead
    simp only [ofLines, hline, hblank, if_true]

theorem ofLines_titled {title : PhysicalLine} {body : List PhysicalLine}
    (hrest : title :: body = (numbered lines).drop (messageLength lines))
    (htitle : title.isBlank = false) :
    ofLines lines = takeBlocks (max lines.length 1) body >>= fun (cells, surfaces, data) =>
      withCards lines title cells surfaces data := by
  have hhead := head?_drop_numbered lines (messageLength lines)
  have hbody : (numbered lines).drop (messageLength lines + 1) = body := by
    rw [← List.tail_drop, ← hrest]
    rfl
  rw [← hrest] at hhead
  cases hline : lines[messageLength lines]? with
  | none =>
    rw [hline] at hhead
    cases hhead
  | some text =>
    rw [hline] at hhead
    cases hhead
    have hnot : Text.isBlankText text = false := htitle
    simp only [ofLines, hline, hnot, hbody, takeBlocks, withCards, bind_assoc, pure_bind]
    rfl

/-- A text with a title ends in a bad separator, or its blocks decide. -/
theorem titled_cases {title : PhysicalLine} {body : List PhysicalLine}
    (hrest : title :: body = (numbered lines).drop (messageLength lines))
    (htitle : title.isBlank = false) :
    (BadlySeparated body ∧ ∃ fault, ofLines lines = .error fault ∧ fault.code = .badBlockSeparator) ∨
    (¬ BadlySeparated body ∧ (∃ cells surfaces data, Layout body cells surfaces data) ∧
      ∀ cells surfaces data, Layout body cells surfaces data →
        ByBlocks (ofLines lines) title cells surfaces data) := by
  rw [ofLines_titled hrest htitle]
  rcases takeBlocks_error_or_layout (max lines.length 1) body with
    ⟨hbad, fault, hfault, hcode⟩ | ⟨hgood, hlayout⟩
  · refine .inl ⟨hbad, fault, ?_, hcode⟩
    rw [hfault]
    rfl
  · refine .inr ⟨hgood, hlayout, ?_⟩
    intro cells surfaces data h
    rw [takeBlocks_of_layout h hgood (max lines.length 1)]
    exact byBlocks_withCards lines title cells surfaces data

theorem code_of_titled {title : PhysicalLine} {body : List PhysicalLine}
    (hrest : title :: body = (numbered lines).drop (messageLength lines))
    (htitle : title.isBlank = false) {fault : LayoutFault} (hfault : ofLines lines = .error fault) :
    (BadlySeparated body ∧ fault.code = .badBlockSeparator) ∨
      (¬ BadlySeparated body ∧ fault.code = .emptyBlock) := by
  rcases titled_cases hrest htitle with
    ⟨hbad, other, hother, hcode⟩ | ⟨hgood, ⟨cells, surfaces, data, hlayout⟩, hblocks⟩
  · rw [hother] at hfault
    exact .inl ⟨hbad, Except.error.inj hfault ▸ hcode⟩
  · have hby := hblocks cells surfaces data hlayout
    rw [hfault] at hby
    exact .inr ⟨hgood, hby.code_of_error⟩

end Title

def Fails (text : String) (code : Code) : Prop :=
  ∃ fault, ofText text = .error fault ∧ fault.code = code

/-- Every text has one outcome. After the message block a title is looked for first, then two single
blank lines, and then content in each of the three blocks; with all of these the text is divided. -/
theorem outcome_of_text (text : String) :
    (∃ rest, AfterMessages (numbered (Text.lines text.toList)) rest) ∧
    ∀ rest, AfterMessages (numbered (Text.lines text.toList)) rest →
      (Fails text .missingTitle ↔ Untitled rest) ∧
      ∀ title body, rest = title :: body → title.isBlank = false →
        (Fails text .badBlockSeparator ↔ BadlySeparated body) ∧
        (¬ BadlySeparated body → (∃ cells surfaces data, Layout body cells surfaces data) ∧
          ∀ cells surfaces data, Layout body cells surfaces data →
            ByBlocks (ofText text) title cells surfaces data) := by
  refine ⟨exists_afterMessages _, fun rest hafter => ?_⟩
  have hrest := hafter.eq_drop
  rw [map_text_numbered] at hrest
  constructor
  · constructor
    · rintro ⟨fault, hfault, hcode⟩ title hhead
      by_contra htitle
      obtain ⟨body, rfl⟩ := List.head?_eq_some_iff.mp hhead
      rcases code_of_titled hrest (Bool.eq_false_iff.mpr htitle) hfault with ⟨_, h⟩ | ⟨_, h⟩
      · rw [h] at hcode
        cases hcode
      · rw [h] at hcode
        cases hcode
    · intro huntitled
      exact ⟨_, ofLines_untitled hrest huntitled, rfl⟩
  · rintro title body rfl htitle
    constructor
    · constructor
      · rintro ⟨fault, hfault, hcode⟩
        rcases code_of_titled hrest htitle hfault with ⟨hbad, _⟩ | ⟨_, h⟩
        · exact hbad
        · rw [h] at hcode
          cases hcode
      · intro hbad
        rcases titled_cases hrest htitle with ⟨_, hfault⟩ | ⟨hgood, _⟩
        · exact hfault
        · exact absurd hbad hgood
    · intro hgood
      rcases titled_cases hrest htitle with ⟨hbad, _⟩ | ⟨_, hblocks⟩
      · exact absurd hbad hgood
      · exact hblocks

def withTrailingText : String :=
  "  Message: first run\n\nspheres\n1 0 -1\n\n1 so 1\n\nnps 1\n\n\nno card\n"

theorem outcome_of_withTrailingText : ∃ title body,
    AfterMessages (numbered (Text.lines withTrailingText.toList)) (title :: body) ∧
    title.isBlank = false ∧ ¬ BadlySeparated body ∧
    ∃ cells surfaces data, Layout body cells surfaces data ∧
      ByBlocks (ofText withTrailingText) title cells surfaces data := by
  obtain ⟨⟨rest, hafter⟩, houtcome⟩ := outcome_of_text withTrailingText
  have hrest := hafter.eq_drop
  rw [map_text_numbered] at hrest
  have hlines : ∃ title body, (numbered (Text.lines withTrailingText.toList)).drop
      (messageLength (Text.lines withTrailingText.toList)) = title :: body ∧
      title.isBlank = false ∧ ¬ BadlySeparated body := by
    refine ⟨_, _, rfl, by decide +kernel, ?_⟩
    unfold BadlySeparated
    decide +kernel
  obtain ⟨title, body, hbody, htitle, hgood⟩ := hlines
  obtain rfl : rest = title :: body := hrest.trans hbody
  obtain ⟨⟨cells, surfaces, data, hlayout⟩, hblocks⟩ :=
    ((houtcome _ hafter).2 title body rfl htitle).2 hgood
  exact ⟨title, body, hafter, htitle, hgood, cells, surfaces, data, hlayout,
    hblocks cells surfaces data hlayout⟩

end Blocks

end TransportDeck
