import TransportDeck.Proofs.Card.CellParameters
import TransportDeck.Proofs.Card.ParameterGroups
import TransportDeck.Proofs.Card.WrittenOut

/-!
Repeats without a count. To a fill `r` and `1r` are the same, but `r` starts with a letter: on a cell card
it opens a keyword group, so the fill ends before it and the values after it go to that group.
-/

namespace TransportDeck.Card

open Number

section Fills

variable {degrees : Bool} {token token' : String} {n : Nat} {values rest : List String} {a : FillArray}

/-- Repeats with one count stand for the same copies. -/
theorem EntryRun.replace {limit : Nat} {entries result : List FillEntry}
    (h : Shorthand.read? token = some (.copies n)) (h' : Shorthand.read? token' = some (.copies n))
    (hrun : EntryRun degrees limit entries (values ++ token :: rest) result) :
    EntryRun degrees limit entries (values ++ token' :: rest) result := by
  obtain ⟨last, more, hfirst, hfits, hlater⟩ := hrun.before_repeat h
  exact hfirst.append (.copies h' hfits hlater)

theorem leadingRanges_append_cons (h : readRange? token = none) (values rest : List String) :
    leadingRanges (values ++ token :: rest) = leadingRanges values := by
  have hstop : (readRange? token).isSome = false := by rw [h]; rfl
  unfold leadingRanges
  congr 1
  rw [List.take_append]
  rcases Nat.lt_or_ge values.length 3 with hshort | hlong
  · obtain ⟨k, hk⟩ : ∃ k, 3 - values.length = k + 1 := ⟨2 - values.length, by omega⟩
    rw [hk, List.take_succ_cons, List.map_append, List.map_cons, takeWhile_append_stop hstop]
  · rw [Nat.sub_eq_zero_of_le hlong, List.take_zero, List.append_nil]

theorem readFill_replace (h : Shorthand.read? token = some (.copies n))
    (h' : Shorthand.read? token' = some (.copies n)) (hrange : readRange? token = none)
    (hrange' : readRange? token' = none)
    (hread : readFill degrees (values ++ token :: rest) = .ok (.array a)) :
    readFill degrees (values ++ token' :: rest) = .ok (.array a) := by
  obtain ⟨hranges, hne, hentries⟩ := readArray_eq_ok_iff.mp (readFill_eq_array_iff.mp hread)
  rw [leadingRanges_append_cons hrange] at hranges
  -- the three ranges are all read before the repeat, so it stands among the entries
  have hthree : 3 ≤ values.length := by
    have hle := length_leadingRanges_le values
    rwa [hranges] at hle
  have hdrop (t : String) : (values ++ t :: rest).drop 3 = values.drop 3 ++ t :: rest :=
    List.drop_append_of_le_length hthree
  rw [hdrop, readEntries_eq_ok_iff] at hentries
  rw [readFill_eq_array_iff, readArray_eq_ok_iff, leadingRanges_append_cons hrange', hdrop,
    readEntries_eq_ok_iff]
  refine ⟨hranges, hne, ?_⟩
  have hlength : (values.drop 3 ++ token' :: rest).length = (values.drop 3 ++ token :: rest).length := by
    simp
  rw [hlength]
  exact hentries.replace h h'

/-- A fill reads a repeat without a count as one with the count one. -/
theorem readFill_bareRepeat : readFill degrees (values ++ "r" :: rest) = .ok (.array a) ↔
    readFill degrees (values ++ "1r" :: rest) = .ok (.array a) := by
  have hbare : Shorthand.read? "r" = some (.copies 1) := by decide +kernel
  have hcounted : Shorthand.read? "1r" = some (.copies 1) := by decide +kernel
  have hrange : readRange? "r" = none := by decide +kernel
  have hrange' : readRange? "1r" = none := by decide +kernel
  exact ⟨readFill_replace hbare hcounted hrange hrange', readFill_replace hcounted hbare hrange' hrange⟩

end Fills

section Cards

variable {lead entries : List Char} {earlier : KeywordGroups} {keyword : String} {values : List String}

/-- A cell card up to a place among the values of a fill: `lead` goes up to the keyword of the fill, and
`entries` are the values so far. -/
structure FillFront (lead entries : List Char) (earlier : KeywordGroups) (keyword : String)
    (values : List String) : Prop where
  groups : cardGroups lead = earlier ++ [(keyword, [])]
  isFill : (splitKeyword keyword).1 = "fill" ∨ (splitKeyword keyword).1 = "*fill"
  apart : Text.StartsWord ['='] lead
  written : (Text.tokens ['=', '(', ')'] entries).filter (· != "=") = values
  plain : ∀ value ∈ values, isKeyword value = false
  ends : Text.StartsWord ['=', '(', ')'] entries

namespace FillFront

theorem groups_ne_nil (h : FillFront lead entries earlier keyword values) : cardGroups lead ≠ [] := by
  rw [h.groups]
  exact List.append_ne_nil_of_right_ne_nil earlier (List.cons_ne_nil _ _)

/-- What follows the values is more values up to the next keyword, and then groups of its own. -/
theorem cardGroups_append (h : FillFront lead entries earlier keyword values) {more : List Char}
    {others us : List String}
    (hmore : (Text.tokens ['=', '(', ')'] more).filter (· != "=") = others ++ us)
    (hothers : ∀ value ∈ others, isKeyword value = false) (hus : ∀ t ∈ us.head?, isKeyword t = true) :
    cardGroups (lead ++ entries ++ more) =
      earlier ++ (keyword, values ++ others) :: groupTokens us := by
  have hopen : IsGrouping (cardGroups lead).tokens (earlier ++ [(keyword, [])]) := by
    rw [← h.groups]
    exact isGrouping_cardGroups lead
  have hvalues : ∀ value ∈ values ++ others, isKeyword value = false :=
    List.forall_mem_append.mpr ⟨h.plain, hothers⟩
  have hgroups := (hopen.extend hvalues hus).eq_groupTokens
  calc cardGroups (lead ++ entries ++ more)
      = cardGroups (lead ++ (entries ++ more)) := by rw [List.append_assoc]
    _ = groupTokens ((cardGroups lead).tokens ++
          (Text.tokens ['=', '(', ')'] (entries ++ more)).filter (· != "=")) :=
        Card.cardGroups_append h.apart h.groups_ne_nil _
    _ = groupTokens ((cardGroups lead).tokens ++ (values ++ others) ++ us) := by
        rw [Text.tokens_append h.ends, List.filter_append, h.written, hmore]
        simp only [List.append_assoc]
    _ = earlier ++ (keyword, values ++ others) :: groupTokens us := hgroups.symm

theorem readCell_append (h : FillFront lead entries earlier keyword values) (more : List Char) :
    readCell (lead ++ entries ++ more) =
      withGroups (cardGroups (lead ++ entries ++ more)) (readCell lead) := by
  rw [List.append_assoc]
  exact Card.readCell_append h.apart h.groups_ne_nil _

end FillFront

/-- The keyword that a bare repeat becomes is kept with its values, and apart from it the same keywords are
kept. -/
theorem other_bareRepeat (h : (splitKeyword keyword).1 = "fill" ∨ (splitKeyword keyword).1 = "*fill")
    (earlier later : KeywordGroups) (values values' rest : List String) :
    ∃ front back,
      (readGroups (earlier ++ (keyword, values) :: ("r", rest) :: later)).1.other =
        front ++ ("r", rest) :: back ∧
      (readGroups (earlier ++ (keyword, values') :: later)).1.other = front ++ back := by
  have hfill : (splitKeyword keyword).1 ∈ parameterNames := by
    rcases h with h | h <;> simp [h, parameterNames]
  have hbare : (splitKeyword "r").1 ∉ parameterNames := by decide +kernel
  let others (groups : KeywordGroups) := groups.filter fun g => (splitKeyword g.1).1 ∉ parameterNames
  refine ⟨others earlier, others later, ?_, ?_⟩
  · simp [other_readGroups, others, hfill, hbare]
  · simp [other_readGroups, others, hfill]

/-- A letter is a token where a word starts and ends with it. -/
theorem tokens_repeat {r : Char} {back : List Char} (hr : r.toLower = 'r')
    (hback : Text.EndsWord ['=', '(', ')'] back) :
    Text.tokens ['=', '(', ')'] (r :: back) = "r" :: Text.tokens ['=', '(', ')'] back ∧
    Text.tokens ['=', '(', ')'] ('1' :: r :: back) = "1r" :: Text.tokens ['=', '(', ')'] back := by
  have hletter : r.isAlpha = true := by
    rw [← Text.isAlpha_toLower, hr]
    rfl
  have hblank : Text.isBlank r = false := Text.not_isBlank_of_isAlpha hletter
  have hplain : ['=', '(', ')'].contains r = false := by
    rw [Bool.eq_false_iff, Ne, List.contains_iff_mem]
    intro hmem
    simp only [List.mem_cons, List.not_mem_nil, or_false] at hmem
    rcases hmem with rfl | rfl | rfl <;> cases hletter
  have hbare : String.ofList (Text.lower [r]) = "r" := by
    rw [Text.lower, List.map_singleton, hr]
  have hcounted : String.ofList (Text.lower ['1', r]) = "1r" := by
    rw [Text.lower, List.map_cons, List.map_singleton, hr]
    rfl
  have hword : Text.IsWord [r] := ⟨List.cons_ne_nil _ _, List.forall_mem_singleton.mpr hblank⟩
  have hword' : Text.IsWord ['1', r] :=
    ⟨List.cons_ne_nil _ _, List.forall_mem_cons.mpr ⟨by decide, List.forall_mem_singleton.mpr hblank⟩⟩
  constructor
  · rw [← hbare]
    exact Text.tokens_word_append hword (List.forall_mem_singleton.mpr hplain) hback
  · rw [← hcounted]
    have hplain' : ∀ c ∈ ['1', r], ['=', '(', ')'].contains c = false :=
      List.forall_mem_cons.mpr ⟨by decide, List.forall_mem_singleton.mpr hplain⟩
    exact Text.tokens_word_append hword' hplain' hback

/-- To a fill a repeat without a count is one with the count one. On a cell card it opens a keyword group
with the values after it, which are lost to the fill. So the two spellings never give the same cell; they
only agree on a card that gives no cell at all. -/
theorem bareRepeat_opens_group {r : Char} {back : List Char}
    (h : FillFront lead entries earlier keyword values) (hr : r.toLower = 'r')
    (hback : Text.EndsWord ['=', '(', ')'] back) :
    let bare := lead ++ entries ++ r :: back
    let counted := lead ++ entries ++ '1' :: r :: back
    ∃ rest later,
      cardGroups bare = earlier ++ (keyword, values) :: ("r", rest) :: later ∧
      cardGroups counted = earlier ++ (keyword, values ++ "1r" :: rest) :: later ∧
      (∀ degrees a, readFill degrees (values ++ "r" :: rest) = .ok (.array a) ↔
        readFill degrees (values ++ "1r" :: rest) = .ok (.array a)) ∧
      readCell bare = withGroups (cardGroups bare) (readCell lead) ∧
      readCell counted = withGroups (cardGroups counted) (readCell lead) ∧
      (∃ front kept, (readGroups (cardGroups bare)).1.other = front ++ ("r", rest) :: kept ∧
        (readGroups (cardGroups counted)).1.other = front ++ kept) ∧
      (readCell bare = readCell counted ↔ ∃ issue, readCell lead = .error issue) := by
  intro bare counted
  obtain ⟨hbare, hcounted⟩ := tokens_repeat hr hback
  generalize hts : (Text.tokens ['=', '(', ')'] back).filter (· != "=") = ts
  generalize hrest : (ts.takeWhile fun t => !isKeyword t) = rest
  generalize hlater : groupTokens (ts.dropWhile fun t => !isKeyword t) = later
  have hplain : ∀ value ∈ rest, isKeyword value = false := by
    intro value hvalue
    rw [← hrest] at hvalue
    simpa using List.mem_takeWhile_imp hvalue
  have hbareGroups : cardGroups bare = earlier ++ (keyword, values) :: ("r", rest) :: later := by
    have hmore : (Text.tokens ['=', '(', ')'] (r :: back)).filter (· != "=") = [] ++ "r" :: ts := by
      rw [hbare, List.filter_cons, if_pos (by decide), hts]
      rfl
    have hgroups := h.cardGroups_append hmore (by simp) (fun t ht => by cases ht; decide)
    rwa [List.append_nil, groupTokens, hrest, hlater] at hgroups
  have hcountedGroups : cardGroups counted = earlier ++ (keyword, values ++ "1r" :: rest) :: later := by
    have hmore : (Text.tokens ['=', '(', ')'] ('1' :: r :: back)).filter (· != "=") =
        ("1r" :: rest) ++ ts.dropWhile fun t => !isKeyword t := by
      rw [hcounted, List.filter_cons, if_pos (by decide), hts, ← hrest, List.cons_append,
        List.takeWhile_append_dropWhile]
    have hvalues : ∀ value ∈ "1r" :: rest, isKeyword value = false :=
      List.forall_mem_cons.mpr ⟨by decide, hplain⟩
    have hgroups := h.cardGroups_append hmore hvalues (isKeyword_of_dropWhile ts)
    rwa [hlater] at hgroups
  have hbareCell := h.readCell_append (r :: back)
  have hcountedCell := h.readCell_append ('1' :: r :: back)
  obtain ⟨front, kept, hother, hother'⟩ :=
    other_bareRepeat h.isFill earlier later values (values ++ "1r" :: rest) rest
  rw [← hbareGroups] at hother
  rw [← hcountedGroups] at hother'
  refine ⟨rest, later, hbareGroups, hcountedGroups, fun degrees a => readFill_bareRepeat, hbareCell,
    hcountedCell, ⟨front, kept, hother, hother'⟩, ?_, ?_⟩
  · intro hsame
    rw [hbareCell, hcountedCell] at hsame
    rcases hlead : readCell lead with issue | ⟨c, issues⟩
    · exact ⟨issue, rfl⟩
    · -- one of the two cells keeps a keyword more than the other
      rw [hlead] at hsame
      have hparams : (readGroups (cardGroups bare)).1 = (readGroups (cardGroups counted)).1 :=
        congrArg Cell.params (Prod.mk.inj (Except.ok.inj hsame)).1
      rw [hparams, hother'] at hother
      simpa using congrArg List.length hother
  · rintro ⟨issue, hlead⟩
    rw [hbareCell, hcountedCell, hlead]
    rfl

/-- A lattice in which a bare repeat stands between two universes. -/
theorem fillFront_lattice : FillFront "1 0 -1 lat=1 fill=".toList "0:2 0:0 0:0 2 ".toList
    [("lat", ["1"])] "fill" ["0:2", "0:0", "0:0", "2"] where
  groups := by decide +kernel
  isFill := .inl (by decide +kernel)
  apart := by decide +kernel
  written := by decide +kernel
  plain := by decide +kernel
  ends := by decide +kernel

theorem bareRepeat_in_lattice :
    FillFront "1 0 -1 lat=1 fill=".toList "0:2 0:0 0:0 2 ".toList [("lat", ["1"])] "fill"
      ["0:2", "0:0", "0:0", "2"] ∧
    'R'.toLower = 'r' ∧ Text.EndsWord ['=', '(', ')'] " 3 u=1".toList ∧
    cardGroups "1 0 -1 lat=1 fill=0:2 0:0 0:0 2 R 3 u=1".toList =
      [("lat", ["1"]), ("fill", ["0:2", "0:0", "0:0", "2"]), ("r", ["3"]), ("u", ["1"])] ∧
    readCell "1 0 -1 lat=1 fill=0:2 0:0 0:0 2 R 3 u=1".toList ≠
      readCell "1 0 -1 lat=1 fill=0:2 0:0 0:0 2 1R 3 u=1".toList := by
  have hend : Text.EndsWord ['=', '(', ')'] " 3 u=1".toList := by decide +kernel
  have hletter : 'R'.toLower = 'r' := by decide
  have hread : (readCell "1 0 -1 lat=1 fill=".toList).toOption.isSome = true := by decide +kernel
  obtain ⟨rest, later, -, -, -, -, -, -, hsame⟩ := bareRepeat_opens_group fillFront_lattice hletter hend
  refine ⟨fillFront_lattice, hletter, hend, by decide +kernel, fun heq => ?_⟩
  obtain ⟨issue, hissue⟩ := hsame.mp heq
  rw [hissue] at hread
  cases hread

/-- Two places, of which a bare repeat leaves the second one open. -/
theorem bareRepeat_leaves_place_open :
    ((readCell "1 0 -1 lat=1 fill=0:1 0:0 0:0 2 r".toList).toOption.bind fun read =>
      read.1.params.fill) = some (.array ⟨⟨0, 1⟩, ⟨0, 0⟩, ⟨0, 0⟩, [⟨2, none⟩]⟩) ∧
    ((readCell "1 0 -1 lat=1 fill=0:1 0:0 0:0 2 1r".toList).toOption.bind fun read =>
      read.1.params.fill) = some (.array ⟨⟨0, 1⟩, ⟨0, 0⟩, ⟨0, 0⟩, [⟨2, none⟩, ⟨2, none⟩]⟩) ∧
    ¬ ∀ lead entries back r earlier keyword values degrees a,
      FillFront lead entries earlier keyword values → readFill degrees values = .ok (.array a) →
      r.toLower = 'r' → Text.EndsWord ['=', '(', ')'] back →
      readCell (lead ++ entries ++ r :: back) = readCell (lead ++ entries ++ '1' :: r :: back) := by
  have hbare : ((readCell "1 0 -1 lat=1 fill=0:1 0:0 0:0 2 r".toList).toOption.bind fun read =>
      read.1.params.fill) = some (.array ⟨⟨0, 1⟩, ⟨0, 0⟩, ⟨0, 0⟩, [⟨2, none⟩]⟩) := by decide +kernel
  have hcounted : ((readCell "1 0 -1 lat=1 fill=0:1 0:0 0:0 2 1r".toList).toOption.bind fun read =>
      read.1.params.fill) = some (.array ⟨⟨0, 1⟩, ⟨0, 0⟩, ⟨0, 0⟩, [⟨2, none⟩, ⟨2, none⟩]⟩) := by
    decide +kernel
  have hfront : FillFront "1 0 -1 lat=1 fill=".toList "0:1 0:0 0:0 2 ".toList [("lat", ["1"])] "fill"
      ["0:1", "0:0", "0:0", "2"] :=
    ⟨by decide +kernel, .inl (by decide +kernel), by decide +kernel, by decide +kernel,
      by decide +kernel, by decide +kernel⟩
  have hfill : (readFill false ["0:1", "0:0", "0:0", "2"]).toOption =
      some (.array ⟨⟨0, 1⟩, ⟨0, 0⟩, ⟨0, 0⟩, [⟨2, none⟩]⟩) := by decide +kernel
  refine ⟨hbare, hcounted, fun h => ?_⟩
  have hsame := h _ _ [] 'r' _ _ _ _ _ hfront (ok_of_toOption hfill) (by decide) (by decide)
  change readCell "1 0 -1 lat=1 fill=0:1 0:0 0:0 2 r".toList =
    readCell "1 0 -1 lat=1 fill=0:1 0:0 0:0 2 1r".toList at hsame
  rw [hsame, hcounted] at hbare
  cases hbare

end Cards

end TransportDeck.Card
