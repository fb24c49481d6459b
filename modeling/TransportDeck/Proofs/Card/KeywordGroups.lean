import TransportDeck.Card.Data
import TransportDeck.Card.Cell
import TransportDeck.Proofs.Text.Stops

/-!
Assignments in keyword groups. The value of an assignment is the first value of its keyword, unless the
value reads as a keyword itself: then it opens a group of its own, and the keyword is left empty.
-/

namespace TransportDeck

def Payload.keywordGroups? : Payload → Option KeywordGroups
  | source groups | burn groups | meshTally groups => some groups
  | _ => none

namespace Card

section Grouping

variable {keyword value : String}

/-- A keyword opens a group, whatever stands before it. -/
theorem groupTokens_append (h : isKeyword keyword = true) (before after : List String) :
    groupTokens (before ++ keyword :: after) = groupTokens before ++ groupTokens (keyword :: after) := by
  have hstop : (!isKeyword keyword) = false := by rw [h, Bool.not_true]
  fun_induction groupTokens before with
  | case1 => rfl
  | case2 first rest ih =>
    rw [List.cons_append, groupTokens, takeWhile_append_stop (p := fun t => !isKeyword t) hstop,
      dropWhile_append_stop (p := fun t => !isKeyword t) hstop, ih, List.cons_append]

theorem ne_equals_of_isKeyword (h : isKeyword keyword = true) : keyword ≠ "=" := by
  rintro rfl
  cases h

theorem keywordGroups_append (h : isKeyword keyword = true) (before after : List String) :
    keywordGroups (before ++ keyword :: after) =
      keywordGroups before ++ keywordGroups (keyword :: after) := by
  have hkept : keyword ≠ "=" := ne_equals_of_isKeyword h
  simp only [keywordGroups, List.filter_append, List.filter_cons, bne_iff_ne, ne_eq, hkept,
    not_false_eq_true, if_true]
  exact groupTokens_append h _ _

/-- The equals sign of an assignment only separates. -/
theorem keywordGroups_assignment (h : isKeyword keyword = true) (before after : List String) :
    keywordGroups (before ++ keyword :: "=" :: value :: after) =
      keywordGroups before ++ keywordGroups (keyword :: value :: after) := by
  rw [keywordGroups_append h]
  simp [keywordGroups, List.filter_cons]

theorem keywordGroups_single (h : isKeyword keyword = true) : keywordGroups [keyword] = [(keyword, [])] := by
  simp [keywordGroups, groupTokens, ne_equals_of_isKeyword h]

/-- Values that are no keywords stay with the keyword before them. -/
theorem keywordGroups_cons_value (h : isKeyword keyword = true) (hvalue : isKeyword value = false)
    (hequals : value ≠ "=") (after : List String) :
    ∃ others later, keywordGroups (keyword :: value :: after) = (keyword, value :: others) :: later := by
  refine ⟨(after.filter (· != "=")).takeWhile fun t => !isKeyword t,
    groupTokens ((after.filter (· != "=")).dropWhile fun t => !isKeyword t), ?_⟩
  simp [keywordGroups, ne_equals_of_isKeyword h, hequals, groupTokens, hvalue]

end Grouping

/-- Cards that consist of keyword groups have those of their tokens, with equals signs set apart. -/
theorem readPayload_groups {name : CardName} (h : name.mnemonic ∈ ["sdef", "burn", "fmesh"])
    (particles : List Particle) (body : List Char) :
    ∃ payload, readPayload name particles body = .ok (payload, []) ∧
      payload.keywordGroups? = some (keywordGroups (Text.tokens ['='] body)) := by
  obtain ⟨marker, mnemonic, number, designators⟩ := name
  simp only [List.mem_cons, List.not_mem_nil, or_false] at h
  rcases h with rfl | rfl | rfl <;> cases number <;> exact ⟨_, rfl, rfl⟩

/-- An assignment keeps its value if and only if the value is no keyword. -/
theorem value_kept_iff {keyword value : String} (hkeyword : isKeyword keyword = true)
    (hvalue : value ≠ "=") (before after : List String) :
    let ts := before ++ keyword :: "=" :: value :: after
    (∃ values later,
      keywordGroups ts = keywordGroups before ++ (keyword, values) :: later ∧
      (values.head? = some value ↔ isKeyword value = false) ∧
      (isKeyword value = true → values = [] ∧ later = keywordGroups (value :: after))) ∧
    (∀ name particles body, name.mnemonic ∈ ["sdef", "burn", "fmesh"] →
      Text.tokens ['='] body = ts → ∃ payload, readPayload name particles body = .ok (payload, []) ∧
        payload.keywordGroups? = some (keywordGroups ts)) ∧
    ∀ params, Text.splitTokens ['(', ')'] params = ts → readParams params = readGroups (keywordGroups ts) := by
  intro ts
  refine ⟨?_, fun name particles body hname hbody => ?_, fun params hparams => ?_⟩
  · have hgroups : keywordGroups ts =
        keywordGroups before ++ keywordGroups (keyword :: value :: after) :=
      keywordGroups_assignment hkeyword before after
    rw [hgroups]
    cases hv : isKeyword value with
    | true =>
      have hopens : keywordGroups (keyword :: value :: after) =
          (keyword, []) :: keywordGroups (value :: after) := by
        have happend := keywordGroups_append hv [keyword] after
        rwa [keywordGroups_single hkeyword] at happend
      rw [hopens]
      exact ⟨[], _, rfl, by simp, fun _ => ⟨rfl, rfl⟩⟩
    | false =>
      obtain ⟨others, later, hstays⟩ := keywordGroups_cons_value hkeyword hv hvalue after
      rw [hstays]
      exact ⟨_, later, rfl, by simp, fun h => by cases h⟩
  · rw [← hbody]
    exact readPayload_groups hname particles body
  · rw [← hparams]
    rfl

/-- The number of a cell is kept by its keyword, on a source card that also draws from a distribution. -/
theorem cell_kept_on_source : isKeyword "cel" = true ∧ "1" ≠ "=" ∧ isKeyword "1" = false ∧
    ∃ payload values later,
      readPayload ⟨none, "sdef", none, none⟩ [] "cel=1 0 erg=d1".toList = .ok (payload, []) ∧
      payload.keywordGroups? = some (("cel", values) :: later) ∧ values.head? = some "1" := by
  have hkeyword : isKeyword "cel" = true := by decide
  have hvalue : isKeyword "1" = false := by decide
  have htokens : Text.tokens ['='] "cel=1 0 erg=d1".toList =
      [] ++ "cel" :: "=" :: "1" :: ["0", "erg", "=", "d1"] := by decide +kernel
  obtain ⟨⟨values, later, hgroups, hhead, -⟩, hpayload, -⟩ :=
    @value_kept_iff "cel" "1" hkeyword (by decide) [] ["0", "erg", "=", "d1"]
  obtain ⟨payload, hread, hpayload⟩ :=
    hpayload ⟨none, "sdef", none, none⟩ [] _ (List.mem_cons_self ..) htokens
  have hnone : keywordGroups [] = [] := by simp [keywordGroups, groupTokens]
  rw [hgroups, hnone, List.nil_append] at hpayload
  exact ⟨hkeyword, by decide, hvalue, payload, values, later, hread, hpayload, hhead.mpr hvalue⟩

/-- A distribution reads as a keyword, so the keyword that it is assigned to is left empty. -/
theorem distribution_opens_group :
    bodyGroups "cel=d1 erg=1".toList = [("cel", []), ("d1", []), ("erg", ["1"])] ∧
    ¬ ∀ body before keyword value after,
      Text.tokens ['='] body = before ++ keyword :: "=" :: value :: after →
      isKeyword keyword = true → value ≠ "=" →
      ∃ values, (keyword, values) ∈ bodyGroups body ∧ values.head? = some value := by
  have hgroups : bodyGroups "cel=d1 erg=1".toList = [("cel", []), ("d1", []), ("erg", ["1"])] := by
    decide +kernel
  refine ⟨hgroups, fun h => ?_⟩
  obtain ⟨values, hmem, hhead⟩ := h "cel=d1 erg=1".toList [] "cel" "d1" ["erg", "=", "1"]
    (by decide +kernel) (by decide) (by decide)
  rw [hgroups] at hmem
  simp only [List.mem_cons, Prod.mk.injEq, List.not_mem_nil, or_false] at hmem
  rcases hmem with ⟨-, rfl⟩ | ⟨hkeyword, -⟩ | ⟨hkeyword, -⟩
  · cases hhead
  · exact absurd hkeyword (by decide)
  · exact absurd hkeyword (by decide)

end Card

end TransportDeck
