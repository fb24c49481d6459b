import TransportDeck.DataCard

/-!
Keyword groups: a keyword and the values up to the next keyword. Equals signs that stand alone only
separate; apart from them grouping neither loses nor reorders tokens.
-/

namespace TransportDeck.Card

/-- A keyword starts with a letter, after any stars and plus signs. -/
def isKeyword (token : String) : Bool :=
  (token.toList.dropWhile fun c => c == '*' || c == '+').head?.any Char.isAlpha

/-- Groups tokens none of which is a lone equals sign. The first token opens a group in any case. -/
def groupTokens : List String → KeywordGroups
  | [] => []
  | keyword :: rest =>
    (keyword, rest.takeWhile fun t => !isKeyword t) ::
      groupTokens (rest.dropWhile fun t => !isKeyword t)
termination_by ts => ts.length
decreasing_by
  have := (List.dropWhile_sublist (fun t => !isKeyword t) (l := rest)).length_le
  simp only [List.length_cons]
  omega

def keywordGroups (ts : List String) : KeywordGroups :=
  groupTokens (ts.filter (· != "="))

end TransportDeck.Card
