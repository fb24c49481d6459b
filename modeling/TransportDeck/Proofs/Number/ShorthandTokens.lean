import TransportDeck.Number.Shorthand
import TransportDeck.Proofs.Number.FloatTexts
import TransportDeck.Proofs.Text.LetterCase

/-!
Which tokens are shorthands. A shorthand ends in letters that no number can hold, so what stands before
them is scanned as if it stood alone, and no token is both a shorthand and a number.
-/

namespace TransportDeck.Number

/-- A letter at which the scan of a number stops, whatever stands before it. -/
structure EndsNumber (c : Char) : Prop where
  isAlpha : c.isAlpha = true
  notExponent : isExponentLetter c = false

namespace EndsNumber

variable {c : Char}

theorem isDigit (h : EndsNumber c) : c.isDigit = false :=
  Text.not_isDigit_of_isAlpha h.isAlpha

theorem ne {d : Char} (h : EndsNumber c) (hd : d.isAlpha = false) : c ≠ d := by
  rintro rfl
  rw [h.isAlpha] at hd
  cases hd

theorem not_isFloatChar (h : EndsNumber c) : ¬ IsFloatChar c := by
  have hpoint : c ≠ '.' := h.ne rfl
  have hsign : isSign c = false := by simp [isSign, h.ne (d := '+') rfl, h.ne (d := '-') rfl]
  simp [IsFloatChar, h.isDigit, hpoint, hsign, h.notExponent]

end EndsNumber

namespace Shorthand

def letters : Shorthand → List String
  | copies _ => ["r"]
  | linear _ => ["i"]
  | logarithmic _ => ["ilog", "log"]
  | multiple _ => ["m"]
  | jumps _ => ["j"]

def CountText (n : Nat) (cs : List Char) : Prop :=
  cs = [] ∧ n = 1 ∨ cs ≠ [] ∧ (∀ c ∈ cs, c.isDigit = true) ∧ ofDigits cs = n

def AmountText : Shorthand → List Char → Prop
  | multiple x, cs => readFloat? (String.ofList cs) = some x
  | s, cs => CountText s.count cs

/-- A token writes a shorthand as its amount and its letters, in either case. -/
def WrittenAs (s : Shorthand) (token : String) : Prop :=
  ∃ amount ending, token.toList = amount ++ ending ∧ s.AmountText amount ∧
    String.ofList (Text.lower ending) ∈ s.letters

theorem endsNumber_of_toLower {c : Char} (h : c.toLower ∈ ['r', 'i', 'l', 'm', 'j']) :
    EndsNumber c := by
  constructor
  · rw [← Text.isAlpha_toLower]
    revert h
    generalize c.toLower = d
    simp only [List.mem_cons, List.not_mem_nil, or_false]
    rintro (rfl | rfl | rfl | rfl | rfl) <;> rfl
  · by_contra hexponent
    rw [Bool.not_eq_false] at hexponent
    simp only [isExponentLetter, Bool.or_eq_true, beq_iff_eq] at hexponent
    rcases hexponent with ((rfl | rfl) | rfl) | rfl <;> revert h <;> decide

variable {s : Shorthand} {ending : List Char}

theorem exists_ending (h : String.ofList (Text.lower ending) ∈ s.letters) :
    ∃ c more, ending = c :: more ∧ EndsNumber c := by
  have hfirst : ∃ d ds, Text.lower ending = d :: ds ∧ d ∈ ['r', 'i', 'l', 'm', 'j'] := by
    have hlist (word : String) (heq : String.ofList (Text.lower ending) = word) :
        Text.lower ending = word.toList := by rw [← heq, String.toList_ofList]
    cases s <;> simp only [letters, List.mem_cons, List.not_mem_nil, or_false] at h
    case logarithmic => rcases h with h | h <;> exact ⟨_, _, hlist _ h, by decide⟩
    all_goals exact ⟨_, _, hlist _ h, by decide⟩
  obtain ⟨d, ds, hlower, hd⟩ := hfirst
  obtain ⟨c, more, rfl, rfl, -⟩ := List.map_eq_cons_iff.mp hlower
  exact ⟨c, more, rfl, endsNumber_of_toLower hd⟩

theorem amountText_iff (h : ∀ x, s ≠ multiple x) {cs : List Char} :
    s.AmountText cs ↔ CountText s.count cs := by
  cases s with
  | multiple x => exact absurd rfl (h x)
  | _ => rfl

theorem ofLetters?_eq_some_iff {n : Nat} {word : String} :
    ofLetters? n word = some s ↔ s.count = n ∧ (∀ x, s ≠ multiple x) ∧ word ∈ s.letters := by
  constructor
  · intro h
    unfold ofLetters? at h
    split at h <;> cases h <;> simp [count, letters]
  · rintro ⟨rfl, hmultiple, hword⟩
    cases s with
    | multiple x => exact absurd rfl (hmultiple x)
    | logarithmic n =>
      simp only [letters, List.mem_cons, List.not_mem_nil, or_false] at hword
      rcases hword with rfl | rfl <;> rfl
    | _ => rw [List.mem_singleton.mp hword]; rfl

theorem readMultiple?_eq_some {cs : List Char} (h : readMultiple? cs = some s) :
    ∃ (t : FloatText) (c : Char), s = multiple t.value ∧ cs = t.text ++ [c] ∧ c.toLower = 'm' := by
  unfold readMultiple? at h
  split at h
  · next x c hscan =>
    split at h
    · next hlower =>
      obtain ⟨t, htext, rfl⟩ := exists_floatText_of_scanFloat? hscan
      exact ⟨t, c, (Option.some.inj h).symm, htext, hlower⟩
    · cases h
  · cases h

/-- Only a multiple ends in an `m`. -/
theorem getLast?_lower_ne (hother : ∀ x, s ≠ multiple x)
    (h : String.ofList (Text.lower ending) ∈ s.letters) :
    (Text.lower ending).getLast? ≠ some 'm' := by
  have hlist (word : String) (heq : String.ofList (Text.lower ending) = word) :
      Text.lower ending = word.toList := by rw [← heq, String.toList_ofList]
  cases s <;> simp only [letters, List.mem_cons, List.not_mem_nil, or_false] at h
  case multiple x => exact absurd rfl (hother x)
  case logarithmic => rcases h with h | h <;> rw [hlist _ h] <;> decide
  all_goals rw [hlist _ h]; decide

theorem writtenAs_of_read? {token : String} (h : read? token = some s) :
    s.WrittenAs token ∧ s.count ≤ maxCount := by
  unfold read? at h
  split at h
  · next found hfound =>
    cases h
    obtain ⟨t, c, rfl, htoken, hlower⟩ := readMultiple?_eq_some hfound
    have hm : Text.lower [c] = ['m'] := congrArg (· :: []) hlower
    refine ⟨⟨t.text, [c], htoken, t.readFloat?_text, ?_⟩, Nat.succ_pos _⟩
    rw [hm]
    exact List.mem_singleton.mpr rfl
  · unfold readCounted? at h
    cases hnat : scanNat? maxCount token.toList with
    | none =>
      rw [hnat] at h
      obtain ⟨hcount, hother, hword⟩ := ofLetters?_eq_some_iff.mp h
      refine ⟨⟨[], token.toList, rfl, ?_, hword⟩, hcount ▸ by decide⟩
      exact (amountText_iff hother).mpr (.inl ⟨rfl, hcount⟩)
    | some found =>
      obtain ⟨n, rest⟩ := found
      rw [hnat] at h
      obtain ⟨hcount, hother, hword⟩ := ofLetters?_eq_some_iff.mp h
      obtain ⟨digits, hnumeral, hlimit, htoken, -⟩ := scanNat?_eq_some_iff.mp hnat
      have hamount : s.AmountText digits := by
        rw [amountText_iff hother, hcount]
        exact .inr ⟨hnumeral.ne_nil, hnumeral.digits, hnumeral.value⟩
      exact ⟨⟨digits, rest, htoken, hamount, hword⟩, hcount ▸ hlimit⟩

theorem readMultiple?_eq_none {cs : List Char} (hother : ∀ x, s ≠ multiple x)
    (h : String.ofList (Text.lower ending) ∈ s.letters) (hcs : cs.getLast? = ending.getLast?) :
    readMultiple? cs = none := by
  by_contra hsome
  obtain ⟨found, hfound⟩ := Option.ne_none_iff_exists'.mp hsome
  obtain ⟨t, c, -, rfl, hlower⟩ := readMultiple?_eq_some hfound
  apply getLast?_lower_ne hother h
  rw [List.getLast?_concat] at hcs
  rw [Text.lower, List.getLast?_map, ← hcs, Option.map_some, hlower]

theorem readCounted?_of_countText {n : Nat} {amount : List Char} (h : CountText n amount)
    (hcount : n ≤ maxCount) (hending : ∀ c ∈ ending.head?, c.isDigit = false) :
    readCounted? (amount ++ ending) = ofLetters? n (String.ofList (Text.lower ending)) := by
  rw [readCounted?]
  rcases h with ⟨rfl, rfl⟩ | ⟨hne, hdigits, hvalue⟩
  · rw [List.nil_append, scanNat?_eq_none hending]
    rfl
  · have hnumeral : Numeral n amount := ⟨hne, hdigits, hvalue⟩
    rw [hnumeral.scanNat?_append hcount hending]
    rfl

theorem read?_of_writtenAs {token : String} (h : s.WrittenAs token) (hcount : s.count ≤ maxCount) :
    read? token = some s := by
  obtain ⟨amount, ending, htoken, hamount, hletters⟩ := h
  obtain ⟨c, more, rfl, hc⟩ := exists_ending hletters
  by_cases hmultiple : ∃ x, s = multiple x
  · obtain ⟨x, rfl⟩ := hmultiple
    obtain ⟨t, rfl, rfl⟩ : ∃ t : FloatText, t.text = amount ∧ x = t.value := by
      have hread := readFloat?_eq_some_iff.mp hamount
      rwa [String.toList_ofList] at hread
    have hm : Text.lower (c :: more) = ['m'] :=
      String.ofList_injective (List.mem_singleton.mp hletters)
    obtain ⟨hlower, hmore⟩ := List.cons.inj hm
    rw [List.map_eq_nil_iff.mp hmore] at htoken
    have hread : readMultiple? token.toList = some (multiple t.value) := by
      have hstop : ∀ d ∈ [c].head?, ¬ IsFloatChar d := by
        rintro _ ⟨⟩
        exact hc.not_isFloatChar
      rw [readMultiple?, htoken, t.scanFloat?_append hstop]
      exact if_pos hlower
    rw [read?, hread]
  · have hother : ∀ x, s ≠ multiple x := fun x h => hmultiple ⟨x, h⟩
    have hstop : ∀ d ∈ (c :: more).head?, d.isDigit = false := by
      rintro _ ⟨⟩
      exact hc.isDigit
    have hlast : token.toList.getLast? = (c :: more).getLast? := by
      rw [htoken, List.getLast?_append, List.getLast?_cons, Option.some_or]
    -- a factor is tried first, and only the last letter tells that there is none
    rw [read?, readMultiple?_eq_none hother hletters hlast, htoken]
    exact (readCounted?_of_countText ((amountText_iff hother).mp hamount) hcount hstop).trans
      (ofLetters?_eq_some_iff.mpr ⟨rfl, hother, hletters⟩)

namespace WrittenAs

variable {token : String}

theorem readFloat?_eq (h : s.WrittenAs token) : readFloat? token = none := by
  obtain ⟨amount, ending, htoken, -, hletters⟩ := h
  obtain ⟨c, more, rfl, hc⟩ := exists_ending hletters
  by_contra hsome
  obtain ⟨x, hx⟩ := Option.ne_none_iff_exists'.mp hsome
  obtain ⟨t, htext, -⟩ := readFloat?_eq_some_iff.mp hx
  have hmem : c ∈ t.text := by simp [htext, htoken]
  exact hc.not_isFloatChar (FloatText.isFloatChar hmem)

theorem readInt?_eq (h : s.WrittenAs token) : readInt? token = none := by
  by_contra hsome
  obtain ⟨n, hn⟩ := Option.ne_none_iff_exists'.mp hsome
  have hfloat := isSome_readFloat?_of_readInt? hn
  rw [h.readFloat?_eq] at hfloat
  cases hfloat

end WrittenAs

theorem readFloat?_eq_none {token : String} (h : read? token = some s) : readFloat? token = none :=
  (writtenAs_of_read? h).1.readFloat?_eq

theorem readInt?_eq_none {token : String} (h : read? token = some s) : readInt? token = none :=
  (writtenAs_of_read? h).1.readInt?_eq

theorem readInt32?_eq_none {token : String} (h : read? token = some s) : readInt32? token = none := by
  rw [readInt32?, readInt?_eq_none h, Option.filter_none]

end Shorthand

end TransportDeck.Number
