import TransportDeck.Proofs.Card.CellForms
import TransportDeck.Proofs.Card.GroupedTokens
import TransportDeck.Proofs.Text.Tokens

/-!
The parameters at the end of a cell card. Once they have begun, what is written after them on the card
only adds to them, and neither the rest of the cell nor a fault in it depends on that.
-/

namespace TransportDeck.Card

open Number

section Keywords

variable {token : String}

/-- After a sign a keyword goes on with a star, a plus or a letter. -/
theorem scanSign_of_isKeyword (h : isKeyword token = true) :
    ∃ c rest, (scanSign token.toList).2 = c :: rest ∧ c.isDigit = false ∧ c ≠ '.' := by
  unfold isKeyword at h
  generalize token.toList = cs at h
  have hletter {c : Char} (hc : c.isAlpha = true) : c.isDigit = false ∧ c ≠ '.' := by
    refine ⟨Text.not_isDigit_of_isAlpha hc, ?_⟩
    rintro rfl
    cases hc
  have hnext {rest : List Char}
      (hrest : (rest.dropWhile fun c => c == '*' || c == '+').head?.any Char.isAlpha = true) :
      ∃ c more, rest = c :: more ∧ c.isDigit = false ∧ c ≠ '.' := by
    cases rest with
    | nil => cases hrest
    | cons c more =>
      refine ⟨c, more, rfl, ?_⟩
      by_cases hmark : (c == '*' || c == '+') = true
      · simp only [Bool.or_eq_true, beq_iff_eq] at hmark
        rcases hmark with rfl | rfl <;> decide
      · rw [List.dropWhile_cons, if_neg hmark] at hrest
        exact hletter hrest
  unfold scanSign
  split
  · cases h
  · exact hnext h
  · exact hnext h

theorem readFloat?_of_isKeyword (h : isKeyword token = true) : readFloat? token = none := by
  obtain ⟨c, rest, hunsigned, hdigit, hpoint⟩ := scanSign_of_isKeyword h
  have hmantissa : scanMantissa? token.toList = none := by
    unfold scanMantissa?
    rcases hsign : scanSign token.toList with ⟨negative, unsigned⟩
    rw [hsign] at hunsigned
    obtain rfl : unsigned = c :: rest := hunsigned
    simp only [List.takeWhile_cons, List.dropWhile_cons, hdigit, Bool.false_eq_true, if_false]
    split
    · next hcons => exact absurd (List.cons.inj hcons).1 hpoint
    · rfl
  simp [readFloat?, scanFloat?, hmantissa]

end Keywords

section Tokens

variable {words ts rest : List String} {number : Nat}

def readCellTokens : List String → CardResult Cell
  | first :: second :: rest =>
    match readId? first with
    | none => .error ⟨some "cell card", .number first⟩
    | some number => onCard s!"cell {number}" (readNumbered number second rest)
  | _ => .error ⟨none, .cellTooShort⟩

theorem readCell_eq (text : List Char) :
    readCell text = readCellTokens (Text.tokens ['='] text) := rfl

def paramTokens : List String → List String
  | _ :: "like" :: _ :: "but" :: params => params
  | _ :: "like" :: _ => []
  | _ :: _ :: rest => rest.dropWhile fun t => !isKeyword t
  | _ => []

def withParams (ts : List String) (result : Except CardFault (Cell × List CardFault)) :
    Except CardFault (Cell × List CardFault) :=
  (fun read => ({ read.1 with params := (readParams ts).1 }, (readParams ts).2)) <$> result

theorem readBack_append (material : Nat) (density : Option Float)
    (h : (words.dropWhile fun t => !isKeyword t) ≠ []) (more : List String) :
    readBack number material density (words ++ more) =
      withParams ((words.dropWhile fun t => !isKeyword t) ++ more)
        (readBack number material density words) := by
  obtain ⟨htake, hdrop⟩ := takeWhile_dropWhile_append_right h more
  unfold readBack
  rw [htake, hdrop]
  dsimp only
  split
  · rfl
  · cases readRegion (Text.joined " " (words.takeWhile fun t => !isKeyword t)).toList <;> rfl

theorem readFull_append {material : String} (h : (rest.dropWhile fun t => !isKeyword t) ≠ [])
    (more : List String) : readFull number material (rest ++ more) =
      withParams ((rest.dropWhile fun t => !isKeyword t) ++ more) (readFull number material rest) := by
  rw [readFull_eq, readFull_eq]
  cases orFault (.number material) (readCardinal? material) with
  | error fault => rfl
  | ok m =>
    change (if m = 0 then _ else _) = withParams _ (if m = 0 then _ else _)
    by_cases hm : m = 0
    · rw [if_pos hm, if_pos hm]
      exact readBack_append m none h more
    · rw [if_neg hm, if_neg hm]
      cases rest with
      | nil => exact absurd rfl h
      | cons token rest =>
        cases hdensity : readFloat token with
        | error fault =>
          simp only [List.cons_append, hdensity]
          rfl
        | ok density =>
          have htoken : isKeyword token = false := by
            by_contra hkeyword
            rw [Bool.not_eq_false] at hkeyword
            rw [readFloat, readFloat?_of_isKeyword hkeyword] at hdensity
            cases hdensity
          rw [List.dropWhile_cons, htoken, Bool.not_false, if_pos rfl] at h ⊢
          simp only [List.cons_append, hdensity]
          exact readBack_append m (some density) h more

section Front

variable {first second : String}

theorem paramTokens_like (first base : String) (params : List String) :
    paramTokens (first :: "like" :: base :: "but" :: params) = params := by
  rw [paramTokens]

theorem paramTokens_full (h : second ≠ "like") (first : String) (rest : List String) :
    paramTokens (first :: second :: rest) = rest.dropWhile fun t => !isKeyword t := by
  rw [paramTokens]
  · rintro base params rfl
    exact absurd rfl h
  · rintro rfl
    exact absurd rfl h

/-- Only after `but` there are parameters on the card of a cell that is like another. -/
theorem exists_but (h : paramTokens (first :: "like" :: rest) ≠ []) :
    ∃ base params, rest = base :: "but" :: params := by
  unfold paramTokens at h
  split at h
  · next hrest =>
    cases hrest
    exact ⟨_, _, rfl⟩
  · exact absurd rfl h
  · next hlike hrest =>
    cases hrest
    exact (hlike rfl).elim
  · exact absurd rfl h

theorem paramTokens_append (h : paramTokens ts ≠ []) (more : List String) :
    paramTokens (ts ++ more) = paramTokens ts ++ more := by
  match ts with
  | [] => exact absurd rfl h
  | [_] => exact absurd rfl h
  | first :: second :: rest =>
    by_cases hlike : second = "like"
    · subst hlike
      obtain ⟨base, params, rfl⟩ := exists_but h
      rw [paramTokens_like]
      exact paramTokens_like first base (params ++ more)
    · rw [paramTokens_full hlike] at h ⊢
      exact (paramTokens_full hlike first (rest ++ more)).trans
        (takeWhile_dropWhile_append_right h more).2

theorem readNumbered_append (h : paramTokens (first :: second :: rest) ≠ [])
    (more : List String) : readNumbered number second (rest ++ more) =
      withParams (paramTokens (first :: second :: rest) ++ more)
        (readNumbered number second rest) := by
  unfold readNumbered
  by_cases hlike : second = "like"
  · subst hlike
    obtain ⟨base, params, rfl⟩ := exists_but h
    rw [if_pos rfl, if_pos rfl, paramTokens_like]
    simp only [List.cons_append, readLike]
    cases readId base <;> rfl
  · rw [if_neg hlike, if_neg hlike]
    rw [paramTokens_full hlike] at h ⊢
    exact readFull_append h more

end Front

/-- The number of a cell is the one that its card starts with. -/
theorem number_of_readNumbered {c : Cell} {second : String} {faults : List CardFault}
    (h : readNumbered number second rest = .ok (c, faults)) : c.number = number := by
  have hback {material : Nat} {density : Option Float} {words : List String}
      (h : readBack number material density words = .ok (c, faults)) : c.number = number := by
    unfold readBack at h
    dsimp only at h
    split at h
    · cases h
    · obtain ⟨region, -, h⟩ := bind_eq_ok.mp h
      cases h
      rfl
  unfold readNumbered at h
  split at h
  · obtain ⟨⟨base, params⟩, -, h⟩ := bind_eq_ok.mp h
    cases h
    rfl
  · rw [readFull_eq] at h
    obtain ⟨material, -, h⟩ := bind_eq_ok.mp h
    split at h
    · exact hback h
    · split at h
      · cases h
      · obtain ⟨density, -, h⟩ := bind_eq_ok.mp h
        exact hback h

end Tokens

section Cards

variable {text more : List Char}

def cardGroups (text : List Char) : KeywordGroups :=
  cellGroups (paramTokens (Text.tokens ['='] text))

def withGroups (groups : KeywordGroups) : CardResult Cell → CardResult Cell
  | .ok (c, _) => .ok ({ c with params := (readGroups groups).1 },
      (readGroups groups).2.map fun fault => ⟨some s!"cell {c.number}", fault⟩)
  | .error issue => .error issue

theorem paramTokens_ne_nil (h : cardGroups text ≠ []) : paramTokens (Text.tokens ['='] text) ≠ [] := by
  intro hnil
  rw [cardGroups, hnil] at h
  simp [cellGroups, keywordGroups, groupTokens, Text.splitTokens] at h

theorem readCellTokens_append {ts : List String} (h : paramTokens ts ≠ []) (more : List String) :
    readCellTokens (ts ++ more) = withGroups (cellGroups (paramTokens ts ++ more)) (readCellTokens ts) := by
  match ts with
  | [] => exact absurd rfl h
  | [_] => exact absurd rfl h
  | first :: second :: rest =>
    rw [List.cons_append, List.cons_append, readCellTokens, readCellTokens]
    cases readId? first with
    | none => rfl
    | some number =>
      dsimp only
      rw [readNumbered_append h, withParams]
      rcases hread : readNumbered number second rest with fault | ⟨c, faults⟩
      · rfl
      · have hnumber : c.number = number := number_of_readNumbered hread
        rw [← hnumber]
        rfl

/-- Once the parameters of a card have begun, what is written after them changes nothing else. -/
theorem readCell_append (hstart : Text.StartsWord ['='] text) (h : cardGroups text ≠ [])
    (more : List Char) :
    readCell (text ++ more) = withGroups (cardGroups (text ++ more)) (readCell text) := by
  have hparams := paramTokens_ne_nil h
  rw [cardGroups, readCell_eq, readCell_eq, Text.tokens_append hstart, paramTokens_append hparams]
  exact readCellTokens_append hparams _

theorem isGrouping_cardGroups (text : List Char) :
    IsGrouping (cardGroups text).tokens (cardGroups text) := by
  have hgrouping := isGrouping_keywordGroups
    (Text.splitTokens ['(', ')'] (paramTokens (Text.tokens ['='] text)))
  exact ⟨rfl, hgrouping.keywords, hgrouping.values⟩

/-- The tokens of what is written after the parameters have begun are those of a text of its own. -/
theorem cardGroups_append (hstart : Text.StartsWord ['='] text) (h : cardGroups text ≠ [])
    (more : List Char) : cardGroups (text ++ more) =
      groupTokens ((cardGroups text).tokens ++
        (Text.tokens ['=', '(', ')'] more).filter (· != "=")) := by
  have hcut : Text.splitTokens ['(', ')'] (Text.tokens ['='] more) = Text.tokens ['=', '(', ')'] more :=
    Text.splitTokens_tokens (by decide) (by decide) (List.forall_mem_singleton.mpr (by decide)) more
  generalize hfront : Text.splitTokens ['(', ')'] (paramTokens (Text.tokens ['='] text)) = front
  have hgroups : cardGroups text = groupTokens (front.filter (· != "=")) := by
    rw [cardGroups, cellGroups, hfront, keywordGroups]
  calc cardGroups (text ++ more)
      = cellGroups (paramTokens (Text.tokens ['='] text) ++ Text.tokens ['='] more) := by
        rw [cardGroups, Text.tokens_append hstart, paramTokens_append (paramTokens_ne_nil h)]
    _ = groupTokens (front.filter (· != "=") ++
          (Text.tokens ['=', '(', ')'] more).filter (· != "=")) := by
        rw [cellGroups, Text.splitTokens_append, hfront, hcut, keywordGroups, List.filter_append]
    _ = _ := by rw [hgroups, tokens_groupTokens]

end Cards

end TransportDeck.Card
