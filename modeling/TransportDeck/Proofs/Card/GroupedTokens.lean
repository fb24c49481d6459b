import TransportDeck.Proofs.Card.KeywordGroups

/-!
Keyword groups as a division of the tokens. The tokens that are no equals signs are divided in front of
every keyword and nowhere else, and there is only one such division.
-/

namespace TransportDeck

def KeywordGroups.tokens (groups : KeywordGroups) : List String :=
  groups.flatMap fun g => g.1 :: g.2

namespace Card

/-- The groups divide the tokens in front of each keyword. Only the first group can open with a token that
is none. -/
structure IsGrouping (ts : List String) (groups : KeywordGroups) : Prop where
  tokens : groups.tokens = ts
  keywords : ∀ g ∈ groups.tail, isKeyword g.1 = true
  values : ∀ g ∈ groups, ∀ value ∈ g.2, isKeyword value = false

section Tokens

variable {ts : List String} {groups : KeywordGroups}

theorem tokens_groupTokens (ts : List String) : (groupTokens ts).tokens = ts := by
  fun_induction groupTokens ts with
  | case1 => rfl
  | case2 keyword rest ih =>
    rw [KeywordGroups.tokens] at ih ⊢
    rw [List.flatMap_cons, ih, List.cons_append, List.takeWhile_append_dropWhile]

theorem isKeyword_of_dropWhile (rest : List String) :
    ∀ t ∈ (rest.dropWhile fun t => !isKeyword t).head?, isKeyword t = true := by
  intro t ht
  have hstop := head?_dropWhile_stops (fun t => !isKeyword t) rest t ht
  rwa [Bool.not_eq_false'] at hstop

/-- Tokens that start with a keyword have keywords in front of all their groups. -/
theorem isKeyword_of_mem_groupTokens {g : String × List String}
    (hfirst : ∀ t ∈ ts.head?, isKeyword t = true) (h : g ∈ groupTokens ts) :
    isKeyword g.1 = true := by
  fun_induction groupTokens ts with
  | case1 => cases h
  | case2 keyword rest ih =>
    rcases List.mem_cons.mp h with rfl | hlater
    · exact hfirst keyword rfl
    · exact ih (isKeyword_of_dropWhile rest) hlater

theorem isKeyword_of_mem_tail {g : String × List String} (h : g ∈ (groupTokens ts).tail) :
    isKeyword g.1 = true := by
  cases ts with
  | nil =>
    rw [groupTokens] at h
    cases h
  | cons keyword rest =>
    rw [groupTokens, List.tail_cons] at h
    exact isKeyword_of_mem_groupTokens (isKeyword_of_dropWhile rest) h

theorem not_isKeyword_of_mem_values {g : String × List String} (h : g ∈ groupTokens ts) :
    ∀ value ∈ g.2, isKeyword value = false := by
  fun_induction groupTokens ts with
  | case1 => cases h
  | case2 keyword rest ih =>
    rcases List.mem_cons.mp h with rfl | hlater
    · intro value hvalue
      simpa using List.mem_takeWhile_imp hvalue
    · exact ih hlater

/-- A division of the tokens is found again: the values of a group end where the next keyword stands. -/
theorem IsGrouping.eq_groupTokens (h : IsGrouping ts groups) : groups = groupTokens ts := by
  induction groups generalizing ts with
  | nil =>
    rw [← h.tokens]
    simp [KeywordGroups.tokens, groupTokens]
  | cons g later ih =>
    -- a group after the first opens with a keyword, so the later groups are a division as well
    have hlater : IsGrouping (KeywordGroups.tokens later) later :=
      ⟨rfl, fun g hg => h.keywords g (List.mem_of_mem_tail hg),
        fun g hg => h.values g (List.mem_cons_of_mem _ hg)⟩
    have hstop : ∀ t ∈ (KeywordGroups.tokens later).head?, (!isKeyword t) = false := by
      cases later with
      | nil => exact fun t ht => absurd ht (Option.not_mem_none t)
      | cons next later =>
        rintro _ ⟨⟩
        rw [h.keywords next List.mem_cons_self]
        rfl
    have hvalues : ∀ t ∈ g.2, (!isKeyword t) = true := by
      intro t ht
      rw [h.values g List.mem_cons_self t ht]
      rfl
    obtain ⟨htake, hdrop⟩ := takeWhile_dropWhile_append hvalues hstop
    have htokens : ts = g.1 :: (g.2 ++ KeywordGroups.tokens later) := h.tokens.symm
    rw [htokens, groupTokens, htake, hdrop, ← ih hlater]

theorem isGrouping_groupTokens (ts : List String) : IsGrouping ts (groupTokens ts) where
  tokens := tokens_groupTokens ts
  keywords _ hg := isKeyword_of_mem_tail hg
  values _ hg := not_isKeyword_of_mem_values hg

theorem isGrouping_keywordGroups (ts : List String) :
    IsGrouping (ts.filter (· != "=")) (keywordGroups ts) :=
  isGrouping_groupTokens _

/-- Values go to the group that is open, and the next keyword opens one of its own. -/
theorem IsGrouping.extend {us first values : List String} {keyword : String} {earlier : KeywordGroups}
    (h : IsGrouping ts (earlier ++ [(keyword, first)]))
    (hvalues : ∀ value ∈ values, isKeyword value = false)
    (hstart : ∀ t ∈ us.head?, isKeyword t = true) :
    IsGrouping (ts ++ values ++ us) (earlier ++ (keyword, first ++ values) :: groupTokens us) where
  tokens := by
    have hlater := tokens_groupTokens us
    rw [← h.tokens]
    rw [KeywordGroups.tokens] at hlater ⊢
    simp [KeywordGroups.tokens, hlater]
  keywords := by
    have hlater : ∀ g ∈ groupTokens us, isKeyword g.1 = true :=
      fun g hg => isKeyword_of_mem_groupTokens hstart hg
    have hearlier := h.keywords
    cases earlier with
    | nil => exact hlater
    | cons g earlier =>
      simp only [List.cons_append, List.tail_cons, List.forall_mem_append, List.forall_mem_cons] at hearlier ⊢
      exact ⟨hearlier.1, hearlier.2.1, hlater⟩
  values := by
    have hearlier := h.values
    simp only [List.forall_mem_append, List.forall_mem_cons] at hearlier ⊢
    exact ⟨hearlier.1, ⟨hearlier.2.1, hvalues⟩, fun g hg => not_isKeyword_of_mem_values hg⟩

end Tokens

/-- Grouping keeps every token but the equals signs, in order. It divides them in front of each keyword,
and no other list of groups does so. So tokens that start with a keyword are grouped as if nothing stood
before them. -/
theorem keywordGroups_exact (ts us : List String) :
    IsGrouping (ts.filter (· != "=")) (keywordGroups ts) ∧
    (∀ groups, IsGrouping (ts.filter (· != "=")) groups → groups = keywordGroups ts) ∧
    (us.head?.any isKeyword = true →
      keywordGroups (ts ++ us) = keywordGroups ts ++ keywordGroups us) := by
  refine ⟨isGrouping_keywordGroups ts, fun groups h => h.eq_groupTokens, fun hfirst => ?_⟩
  cases us with
  | nil => cases hfirst
  | cons keyword after => exact keywordGroups_append hfirst ts after

/-- A value before any keyword, a stray equals sign, and a keyword without values next to another. -/
theorem keywordGroups_of_strayValue :
    ["nonu", "imp:n", "=", "1"].head?.any isKeyword = true ∧
    keywordGroups (["5", "=", "u", "2"] ++ ["nonu", "imp:n", "=", "1"]) =
      [("5", []), ("u", ["2"]), ("nonu", []), ("imp:n", ["1"])] := by
  have hfirst : ["nonu", "imp:n", "=", "1"].head?.any isKeyword = true := by decide +kernel
  obtain ⟨-, -, happend⟩ := keywordGroups_exact ["5", "=", "u", "2"] ["nonu", "imp:n", "=", "1"]
  refine ⟨hfirst, ?_⟩
  rw [happend hfirst]
  decide +kernel

end Card

end TransportDeck
