import TransportDeck.Proofs.Card.CellForms
import TransportDeck.Proofs.Card.ParameterGroups
import TransportDeck.Proofs.Card.Quoted

namespace TransportDeck.Card

open Number

def LineTokens (ts : List String) : Prop := ∀ t ∈ ts, OneLine t

section Tokens

variable {token : String} {ts : List String}

theorem LineTokens.subset {part : List String} (h : LineTokens ts) (hpart : part ⊆ ts) :
    LineTokens part :=
  fun t ht => h t (hpart ht)

theorem LineTokens.head (h : LineTokens (token :: ts)) : OneLine token :=
  h token List.mem_cons_self

theorem LineTokens.tail (h : LineTokens (token :: ts)) : LineTokens ts :=
  h.subset (List.subset_cons_self ..)

theorem lineTokens_tokens {delimiters cs : List Char} : LineTokens (Text.tokens delimiters cs) :=
  Text.oneLine_of_mem_tokens

theorem lineTokens_splitTokens {delimiters : List Char} :
    LineTokens (Text.splitTokens delimiters ts) :=
  Text.oneLine_of_mem_splitTokens

/-- A fault that quotes one token. -/
theorem quotesLines_of_quoted {fault : CardFault} (h : fault.quoted = [token])
    (htoken : OneLine token) : fault.QuotesLines := by
  intro s hs
  rw [h] at hs
  rwa [List.mem_singleton.mp hs]

/-- A fault that quotes nothing. -/
theorem quotesLines_of_quoted_nil {fault : CardFault} (h : fault.quoted = []) :
    fault.QuotesLines := by
  intro s hs
  rw [h] at hs
  exact absurd hs List.not_mem_nil

end Tokens

section Numbers

variable {token : String} {ts : List String} {degrees : Bool}

theorem reads_readId (h : OneLine token) : Reads (fun _ => True) (readId token) :=
  reads_orFault (quotesLines_of_quoted rfl h) fun _ _ => trivial

theorem reads_readFloat (h : OneLine token) : Reads (fun _ => True) (readFloat token) :=
  reads_orFault (quotesLines_of_quoted rfl h) fun _ _ => trivial

theorem reads_readInt32 (h : OneLine token) : Reads (fun _ => True) (readInt32 token) :=
  reads_orFault (quotesLines_of_quoted rfl h) fun _ _ => trivial

theorem reads_checkedTransform (number : Nat) (values : List Float) :
    Reads (fun _ => True) (checkedTransform number values degrees) := by
  unfold checkedTransform
  split
  · exact reads_orFault (quotesLines_of_quoted_nil rfl) fun _ _ => trivial
  · exact quotesLines_of_quoted_nil rfl

theorem reads_readInlined (h : LineTokens ts) : Reads (fun _ => True) (readInlined degrees ts) := by
  unfold readInlined
  split
  · exact (reads_readId h.head).map fun _ _ => trivial
  · refine (reads_mapM fun t ht => reads_readFloat (h t ht)).bind fun values _ => ?_
    exact (reads_checkedTransform 0 values).bind fun _ _ => trivial

theorem reads_readTransformSpec (h : LineTokens ts) :
    Reads (fun _ => True) (readTransformSpec degrees ts) := by
  unfold readTransformSpec
  split
  · exact (reads_readId h.head).map fun _ _ => trivial
  · split
    · exact reads_readInlined (h.tail.subset (List.dropLast_subset _))
    · exact quotesLines_of_quoted_nil rfl
  · exact quotesLines_of_quoted_nil rfl

end Numbers

section Fills

variable {token : String} {ts : List String} {degrees : Bool}

theorem reads_pushEntry (h : OneLine token) (limit : Nat) (entries : List FillEntry) :
    Reads (fun _ => True) (pushEntry limit token entries) := by
  unfold pushEntry
  split
  · trivial
  · split
    · unfold repeatEntry
      split
      · exact quotesLines_of_quoted rfl h
      · split
        · trivial
        · exact quotesLines_of_quoted rfl h
    · exact quotesLines_of_quoted rfl h

theorem reads_transformLast (spec : TransformSpec) (entries : List FillEntry) :
    Reads (fun _ => True) (transformLast spec entries) := by
  cases entries with
  | nil => exact quotesLines_of_quoted_nil rfl
  | cons last earlier => trivial

theorem reads_readEntries (h : LineTokens ts) (limit : Nat) (entries : List FillEntry) :
    Reads (fun _ => True) (readEntries degrees limit entries ts) := by
  fun_induction readEntries degrees limit entries ts with
  | case1 => trivial
  | case2 => exact quotesLines_of_quoted_nil rfl
  | case3 entries rest close after hafter ih =>
    have hdropped : close :: after ⊆ rest := by
      rw [← hafter]
      exact (List.dropWhile_sublist _).subset
    have htaken : rest.takeWhile (· != ")") ⊆ rest := (List.takeWhile_sublist _).subset
    have hrest : LineTokens after := h.tail.subset (List.subset_of_cons_subset hdropped)
    have hspec : LineTokens ("(" :: rest.takeWhile (· != ")") ++ [close]) := by
      apply h.subset
      refine List.cons_subset_cons _ (List.append_subset.mpr ⟨htaken, fun t ht => ?_⟩)
      rw [List.mem_singleton.mp ht]
      exact hdropped List.mem_cons_self
    refine (reads_readTransformSpec hspec).bind fun spec _ => ?_
    exact (reads_transformLast spec entries).bind fun changed _ => ih changed hrest
  | case4 entries token rest hparenthesis ih =>
    exact (reads_pushEntry h.head limit entries).bind fun pushed _ => ih pushed h.tail

theorem reads_readArray (h : LineTokens ts) : Reads (fun _ => True) (readArray degrees ts) := by
  unfold readArray
  split
  · refine (reads_readEntries (h.subset (List.drop_subset ..)) _ _).bind fun entries _ => ?_
    split
    · exact quotesLines_of_quoted_nil rfl
    · trivial
  · exact quotesLines_of_quoted_nil rfl

theorem reads_readFillTransform (h : LineTokens ts) :
    Reads (fun _ => True) (readFillTransform degrees ts) := by
  cases ts with
  | nil => trivial
  | cons token rest =>
    rw [readFillTransform]
    split
    · exact (reads_readTransformSpec h).map fun _ _ => trivial
    · exact quotesLines_of_quoted rfl h.head

theorem reads_readFill (h : LineTokens ts) : Reads (fun _ => True) (readFill degrees ts) := by
  cases ts with
  | nil => exact quotesLines_of_quoted_nil rfl
  | cons first rest =>
    rw [readFill]
    split
    · exact (reads_readArray h).map fun _ _ => trivial
    · refine (reads_readInt32 h.head).bind fun target _ => ?_
      exact (reads_readFillTransform h.tail).bind fun transform _ => trivial

end Fills

section Keywords

variable {ts : List String}

def LineGroups (groups : List (String × List String)) : Prop :=
  ∀ g ∈ groups, OneLine g.1 ∧ LineTokens g.2

theorem lineGroups_groupTokens (h : LineTokens ts) : LineGroups (groupTokens ts) := by
  fun_induction groupTokens ts with
  | case1 => exact fun g hg => absurd hg List.not_mem_nil
  | case2 keyword rest ih =>
    have htaken : LineTokens (rest.takeWhile fun t => !isKeyword t) :=
      h.tail.subset (List.takeWhile_sublist _).subset
    have hrest : LineTokens (rest.dropWhile fun t => !isKeyword t) :=
      h.tail.subset (List.dropWhile_sublist _).subset
    exact List.forall_mem_cons.mpr ⟨⟨h.head, htaken⟩, ih hrest⟩

theorem lineGroups_keywordGroups (h : LineTokens ts) : LineGroups (keywordGroups ts) :=
  lineGroups_groupTokens (h.subset List.filter_sublist.subset)

end Keywords

section Settings

variable {keyword : String} {values : List String}

theorem reads_single (hkeyword : OneLine keyword) (h : LineTokens values) :
    Reads OneLine (single keyword values) := by
  unfold single
  split
  · exact h.head
  · exact quotesLines_of_quoted rfl hkeyword

theorem reads_readImportance {designators : Option String} (hkeyword : OneLine keyword)
    (h : LineTokens values) :
    Reads (fun _ => True) (readImportance keyword designators values) := by
  unfold readImportance
  refine (reads_orFault (P := fun _ => True) (quotesLines_of_quoted_nil rfl)
    fun _ _ => trivial).bind fun designators _ => ?_
  refine (reads_orFault (P := fun _ => True) (quotesLines_of_quoted rfl hkeyword)
    fun _ _ => trivial).bind fun particles _ => ?_
  refine (reads_single hkeyword h).bind fun value hvalue => ?_
  refine (reads_readFloat hvalue).bind fun x _ => ?_
  split
  · exact quotesLines_of_quoted_nil rfl
  · trivial

theorem reads_readTemperature (hkeyword : OneLine keyword) (h : LineTokens values) :
    Reads (fun _ => True) (readTemperature keyword values) := by
  unfold readTemperature
  refine (reads_single hkeyword h).bind fun value hvalue => ?_
  refine (reads_readFloat hvalue).bind fun x _ => ?_
  split
  · exact quotesLines_of_quoted_nil rfl
  · trivial

theorem reads_readSetting (hkeyword : OneLine keyword) (h : LineTokens values) :
    Reads (fun _ => True) (readSetting keyword values) := by
  have hsingle := reads_single hkeyword h
  unfold readSetting
  dsimp only
  split
  · exact reads_readImportance hkeyword h
  · exact hsingle.bind fun value hvalue => (reads_readInt32 hvalue).bind fun _ _ => trivial
  · exact hsingle.bind fun value hvalue => (reads_readInt32 hvalue).bind fun _ _ => trivial
  · exact hsingle.bind fun value hvalue => (reads_readFloat hvalue).bind fun _ _ => trivial
  · exact reads_readTemperature hkeyword h
  · exact (reads_readTransformSpec h).map fun _ _ => trivial
  · exact (reads_readTransformSpec h).map fun _ _ => trivial
  · exact (reads_readFill h).map fun _ _ => trivial
  · exact (reads_readFill h).map fun _ _ => trivial
  · trivial

theorem withFaults_readParams (ts : List String) :
    WithFaults (fun p => LineGroups p.other) (readParams ts) := by
  have hgroups : LineGroups (cellGroups ts) := lineGroups_keywordGroups lineTokens_splitTokens
  unfold readParams
  refine ⟨fun g hg => ?_, fun fault hfault => ?_⟩
  · rw [other_readGroups] at hg
    exact hgroups g (List.mem_filter.mp hg).1
  · rw [readGroups_eq] at hfault
    obtain ⟨g, hg, hfault⟩ := List.mem_filterMap.mp hfault
    have hreads := reads_readSetting (hgroups g hg).1 (hgroups g hg).2
    rwa [readSetting_of_fault? hfault] at hreads

end Settings

section Cells

variable {ts : List String}

def LineCell (c : Cell) : Prop := LineGroups c.params.other

theorem reads_readRegionTerm {word : List Char} (h : '\n' ∉ word) :
    Reads (fun _ => True) (readRegionTerm word) := by
  unfold readRegionTerm
  split
  · trivial
  · split
    · trivial
    · have hdigits := fun hmem => h (List.mem_cons_of_mem _ hmem)
      exact quotesLines_of_quoted rfl (oneLine_ofList.mpr hdigits)
  · split
    · trivial
    · exact quotesLines_of_quoted rfl (oneLine_ofList.mpr h)

theorem reads_readRegion (text : List Char) : Reads (fun _ => True) (readRegion text) := by
  unfold readRegion
  refine (reads_mapM (P := fun _ => True) fun word hword => ?_).bind fun _ _ => trivial
  have hblank := Text.not_blank_of_mem_words hword
  exact reads_readRegionTerm (Text.newline_not_mem_of_not_blank hblank)

theorem reads_readLike (h : LineTokens ts) : Reads (fun _ => True) (readLike ts) := by
  cases ts with
  | nil => exact quotesLines_of_quoted_nil rfl
  | cons base rest =>
    refine (reads_readId h.head).bind fun number _ => ?_
    split
    · trivial
    · exact quotesLines_of_quoted_nil rfl

theorem reads_readBack (number material : Nat) (density : Option Float) (words : List String) :
    Reads (WithFaults LineCell) (readBack number material density words) := by
  unfold readBack
  dsimp only
  split
  · exact quotesLines_of_quoted_nil rfl
  · refine (reads_readRegion _).bind fun region _ => ?_
    exact withFaults_readParams _

theorem reads_readFull {material : String} (number : Nat) (hmaterial : OneLine material)
    (h : LineTokens ts) : Reads (WithFaults LineCell) (readFull number material ts) := by
  rw [readFull_eq]
  refine (reads_orFault (P := fun _ => True) (quotesLines_of_quoted rfl hmaterial)
    fun _ _ => trivial).bind fun m _ => ?_
  split
  · exact reads_readBack number m none ts
  · split
    · exact quotesLines_of_quoted_nil rfl
    · exact (reads_readFloat h.head).bind fun density _ => reads_readBack number m (some density) _

theorem reads_readNumbered {second : String} (number : Nat) (hsecond : OneLine second)
    (h : LineTokens ts) : Reads (WithFaults LineCell) (readNumbered number second ts) := by
  unfold readNumbered
  split
  · refine (reads_readLike h).bind fun like _ => ?_
    exact withFaults_readParams like.2
  · exact reads_readFull number hsecond h

theorem lines_readCell (text : List Char) : (readCell text).Lines LineCell := by
  have htokens : LineTokens (Text.tokens ['='] text) := lineTokens_tokens
  unfold readCell
  split
  case h_1 first second rest heq =>
    rw [heq] at htokens
    split
    · exact oneLine_issue (by simp [OneLine]) (quotesLines_of_quoted rfl htokens.head)
    case h_2 number hnumber =>
      have hcard : OneLine s!"cell {number}" := by simp [OneLine, toString]
      exact lines_onCard hcard (reads_readNumbered number htokens.tail.head htokens.tail.tail)
  case h_2 =>
    have hquoted : CardFault.cellTooShort.quoted = [] := rfl
    exact CardFault.QuotesLines.oneLine (quotesLines_of_quoted_nil hquoted)

end Cells

end TransportDeck.Card
