import Mathlib.Algebra.GroupWithZero.Nat
import TransportDeck.Proofs.Number.ShorthandTokens

namespace TransportDeck.Number

/-- What a shorthand adds to the entries `before` it, where `stop` is the number after it. Whether an
end of an interpolation is above zero is asked as whether it is not at most zero. -/
inductive Shorthand.Adds (before : List (Option Float)) (stop : Option Float) :
    Shorthand → List (Option Float) → Prop
  | copies {n : Nat} {last : Option Float} (follows : before.getLast? = some last) :
    Adds before stop (.copies n) (List.replicate n last)
  | multiple {factor x : Float} (follows : before.getLast? = some (some x)) :
    Adds before stop (.multiple factor) [some (x * factor)]
  | jumps {n : Nat} : Adds before stop (.jumps n) (List.replicate n none)
  | linear {n : Nat} {start next : Float} (follows : before.getLast? = some (some start))
    (precedes : stop = some next) :
    Adds before stop (.linear n) ((linearPoints start next n).map some)
  | logarithmic {n : Nat} {start next : Float} (follows : before.getLast? = some (some start))
    (precedes : stop = some next) (start_pos : ¬ start ≤ 0) (next_pos : ¬ next ≤ 0) :
    Adds before stop (.logarithmic n) ((logarithmicPoints start next n).map some)

/-- What a token adds to the entries `before` it, where `next` is the token after it. With the entries
before it a shorthand stays within the limit. -/
def Piece (before : List (Option Float)) (next : Option String) (token : String)
    (piece : List (Option Float)) : Prop :=
  (∃ x, readFloat? token = some x ∧ piece = [some x]) ∨
    ∃ s : Shorthand, s.WrittenAs token ∧ before.length + s.count ≤ maxExpandedLength ∧
      s.Adds before (next.bind readFloat?) piece

inductive Expands : List (Option Float) → List String → List (List (Option Float)) → Prop
  | nil {before : List (Option Float)} : Expands before [] []
  | cons {before piece : List (Option Float)} {token : String} {rest : List String}
    {pieces : List (List (Option Float))} (first : Piece before rest.head? token piece)
    (others : Expands (before ++ piece) rest pieces) :
    Expands before (token :: rest) (piece :: pieces)

section Pieces

variable {before piece : List (Option Float)} {next : Option String} {token : String}
  {s : Shorthand}

theorem piece_number_iff {x : Float} (h : readFloat? token = some x) :
    Piece before next token piece ↔ piece = [some x] := by
  constructor
  · rintro (⟨y, hy, rfl⟩ | ⟨s, hwritten, -⟩)
    · rw [h] at hy
      cases hy
      rfl
    · rw [hwritten.readFloat?_eq] at h
      cases h
  · rintro rfl
    exact .inl ⟨x, h, rfl⟩

/-- No count within the limit is too large to be read. -/
theorem read?_of_fits (h : s.WrittenAs token) (hfits : before.length + s.count ≤ maxExpandedLength) :
    Shorthand.read? token = some s := by
  apply Shorthand.read?_of_writtenAs h
  simp only [maxExpandedLength, Shorthand.maxCount] at *
  omega

theorem piece_shorthand_iff (h : Shorthand.read? token = some s) :
    Piece before next token piece ↔ before.length + s.count ≤ maxExpandedLength ∧
      s.Adds before (next.bind readFloat?) piece := by
  have hwritten := (Shorthand.writtenAs_of_read? h).1
  constructor
  · rintro (⟨x, hx, -⟩ | ⟨t, ht, hfits, hadds⟩)
    · rw [hwritten.readFloat?_eq] at hx
      cases hx
    · rw [read?_of_fits ht hfits] at h
      cases h
      exact ⟨hfits, hadds⟩
  · rintro ⟨hfits, hadds⟩
    exact .inr ⟨s, hwritten, hfits, hadds⟩

theorem not_piece (hfloat : readFloat? token = none) (hread : Shorthand.read? token = none) :
    ¬ Piece before next token piece := by
  rintro (⟨x, hx, -⟩ | ⟨s, hwritten, hfits, -⟩)
  · rw [hfloat] at hx
    cases hx
  · rw [read?_of_fits hwritten hfits] at hread
    cases hread

theorem adds_copies_iff {n : Nat} {entry : Option Float} {stop : Option Float}
    (h : before.getLast? = some entry) :
    (Shorthand.copies n).Adds before stop piece ↔ piece = List.replicate n entry := by
  constructor
  · intro hadds
    cases hadds with
    | copies hlast =>
      rw [h] at hlast
      cases hlast
      rfl
  · rintro rfl
    exact .copies h

theorem adds_multiple_iff {factor x : Float} {stop : Option Float}
    (h : before.getLast? = some (some x)) :
    (Shorthand.multiple factor).Adds before stop piece ↔ piece = [some (x * factor)] := by
  constructor
  · intro hadds
    cases hadds with
    | multiple hlast =>
      rw [h] at hlast
      cases hlast
      rfl
  · rintro rfl
    exact .multiple h

theorem adds_jumps_iff {n : Nat} {stop : Option Float} :
    (Shorthand.jumps n).Adds before stop piece ↔ piece = List.replicate n none := by
  constructor
  · rintro ⟨⟩
    rfl
  · rintro rfl
    exact .jumps

/-- Of the shorthands only the two interpolations wait for the number after them. -/
theorem adds_iff_between? (hcopies : ∀ n, s ≠ .copies n) (hmultiple : ∀ x, s ≠ .multiple x)
    (hjumps : ∀ n, s ≠ .jumps n) {stop : Option Float} :
    s.Adds before stop piece ↔ ∃ start y points, before.getLast? = some (some start) ∧
      stop = some y ∧ s.between? start y = some points ∧ piece = points.map some := by
  constructor
  · rintro (h | h | _ | ⟨hstart, hstop⟩ | ⟨hstart, hstop, hpos, hpos'⟩)
    · exact absurd rfl (hcopies _)
    · exact absurd rfl (hmultiple _)
    · exact absurd rfl (hjumps _)
    · exact ⟨_, _, _, hstart, hstop, rfl, rfl⟩
    · exact ⟨_, _, _, hstart, hstop, by simp [Shorthand.between?, hpos, hpos'], rfl⟩
  · rintro ⟨start, y, points, hstart, hstop, hbetween, rfl⟩
    cases s with
    | copies n => exact absurd rfl (hcopies n)
    | multiple x => exact absurd rfl (hmultiple x)
    | jumps n => exact absurd rfl (hjumps n)
    | linear n =>
      cases hbetween
      exact .linear hstart hstop
    | logarithmic n =>
      simp only [Shorthand.between?] at hbetween
      split at hbetween
      · cases hbetween
      · next hpos =>
        cases hbetween
        simp only [Bool.or_eq_true, decide_eq_true_eq, not_or] at hpos
        exact .logarithmic hstart hstop hpos.1 hpos.2

/-- Without the entry or the number that it needs before it a shorthand adds nothing. -/
theorem not_adds {last : Option (Option Float)} {stop : Option Float} (hlast : before.getLast? = last)
    (hcopies : ∀ n entry, s = .copies n → last ≠ some entry)
    (hmultiple : ∀ factor x, s = .multiple factor → last ≠ some (some x))
    (hjumps : ∀ n, s ≠ .jumps n) (hstart : ∀ x, last ≠ some (some x)) :
    ¬ s.Adds before stop piece := by
  intro hadds
  cases hadds with
  | copies hentry => exact hcopies _ _ rfl (hlast.symm.trans hentry)
  | multiple hx => exact hmultiple _ _ rfl (hlast.symm.trans hx)
  | jumps => exact hjumps _ rfl
  | linear hfirst => exact hstart _ (hlast.symm.trans hfirst)
  | logarithmic hfirst => exact hstart _ (hlast.symm.trans hfirst)

end Pieces

def ExpandsTo (before : List (Option Float)) (ts : List String) (out : List (Option Float)) : Prop :=
  ∃ pieces, Expands before ts pieces ∧ out = pieces.flatten

section Entries

variable {before out : List (Option Float)} {token : String} {rest ts : List String}

theorem expandsTo_nil : ExpandsTo before [] out ↔ out = [] := by
  constructor
  · rintro ⟨_, _ | _, rfl⟩
    rfl
  · rintro rfl
    exact ⟨[], .nil, rfl⟩

theorem expandsTo_cons : ExpandsTo before (token :: rest) out ↔ ∃ piece tail,
    Piece before rest.head? token piece ∧ ExpandsTo (before ++ piece) rest tail ∧
      out = piece ++ tail := by
  constructor
  · rintro ⟨_, _ | ⟨first, others⟩, rfl⟩
    exact ⟨_, _, first, ⟨_, others, rfl⟩, rfl⟩
  · rintro ⟨piece, _, first, ⟨pieces, others, rfl⟩, rfl⟩
    exact ⟨piece :: pieces, .cons first others, rfl⟩

theorem expandsTo_number {x : Float} (h : readFloat? token = some x) :
    ExpandsTo before (token :: rest) out ↔
      ∃ tail, ExpandsTo (before ++ [some x]) rest tail ∧ out = some x :: tail := by
  rw [expandsTo_cons]
  constructor
  · rintro ⟨piece, tail, first, others, rfl⟩
    cases (piece_number_iff h).mp first
    exact ⟨tail, others, rfl⟩
  · rintro ⟨tail, others, rfl⟩
    exact ⟨[some x], tail, (piece_number_iff h).mpr rfl, others, rfl⟩

theorem expandsTo_shorthand {s : Shorthand} {produced : Nat} (h : Shorthand.read? token = some s)
    (hproduced : before.length = produced) (hshort : ¬ produced + s.count > maxExpandedLength) :
    ExpandsTo before (token :: rest) out ↔ ∃ piece tail,
      s.Adds before (rest.head?.bind readFloat?) piece ∧ ExpandsTo (before ++ piece) rest tail ∧
        out = piece ++ tail := by
  have hfits : before.length + s.count ≤ maxExpandedLength := hproduced ▸ Nat.not_lt.mp hshort
  rw [expandsTo_cons]
  simp only [piece_shorthand_iff h, hfits, true_and]

/-- A shorthand that can add one piece only is read as that piece. -/
theorem expandsTo_piece {s : Shorthand} {produced : Nat} {piece : List (Option Float)}
    (h : Shorthand.read? token = some s) (hproduced : before.length = produced)
    (hshort : ¬ produced + s.count > maxExpandedLength)
    (hadds : ∀ p, s.Adds before (rest.head?.bind readFloat?) p ↔ p = piece) :
    ExpandsTo before (token :: rest) out ↔
      ∃ tail, ExpandsTo (before ++ piece) rest tail ∧ out = piece ++ tail := by
  rw [expandsTo_shorthand h hproduced hshort]
  simp only [hadds]
  constructor
  · rintro ⟨_, tail, rfl, others, rfl⟩
    exact ⟨tail, others, rfl⟩
  · rintro ⟨tail, others, rfl⟩
    exact ⟨piece, tail, rfl, others, rfl⟩

/-- An interpolation takes the number after it along, which is a piece of its own. -/
theorem expandsTo_interpolation {s : Shorthand} {produced : Nat} {start : Float}
    (h : Shorthand.read? token = some s) (hproduced : before.length = produced)
    (hshort : ¬ produced + s.count > maxExpandedLength) (hcopies : ∀ n, s ≠ .copies n)
    (hmultiple : ∀ x, s ≠ .multiple x) (hjumps : ∀ n, s ≠ .jumps n)
    (hstart : before.getLast? = some (some start)) :
    ExpandsTo before (token :: ts) out ↔ ∃ next rest stop points tail, ts = next :: rest ∧
      readFloat? next = some stop ∧ s.between? start stop = some points ∧
      ExpandsTo (before ++ points.map some ++ [some stop]) rest tail ∧
      out = points.map some ++ some stop :: tail := by
  rw [expandsTo_shorthand h hproduced hshort]
  simp only [adds_iff_between? hcopies hmultiple hjumps]
  constructor
  · rintro ⟨_, _, ⟨first, stop, points, hfirst, hstop, hbetween, rfl⟩, others, rfl⟩
    cases hstart.symm.trans hfirst
    obtain ⟨next, hnext, hstop⟩ := Option.bind_eq_some_iff.mp hstop
    obtain ⟨rest, rfl⟩ := List.head?_eq_some_iff.mp hnext
    obtain ⟨tail, htail, rfl⟩ := (expandsTo_number hstop).mp others
    exact ⟨next, rest, stop, points, tail, rfl, hstop, hbetween, htail, rfl⟩
  · rintro ⟨next, rest, stop, points, tail, rfl, hstop, hbetween, htail, rfl⟩
    exact ⟨points.map some, some stop :: tail, ⟨start, stop, points, hstart, hstop, hbetween, rfl⟩,
      (expandsTo_number hstop).mpr ⟨tail, htail, rfl⟩, rfl⟩

theorem bind_return_eq_ok {α β : Type} {x : Except CardFault α} {f : α → β} {b : β} :
    (do let a ← x; return f a) = .ok b ↔ ∃ a, x = .ok a ∧ b = f a := by
  rw [bind_eq_ok]
  simp only [pure, Except.pure, Except.ok.injEq, eq_comm]

theorem getLast?_append_replicate {last : Option (Option Float)} {entry : Option Float} (n : Nat)
    (h : before.getLast? = last) :
    (before ++ List.replicate n entry).getLast? = if n = 0 then last else some entry := by
  rw [List.getLast?_append, h]
  cases n <;> simp [List.getLast?_replicate]

/-- What is read after the entries `before` is what the tokens add to them. -/
theorem expandFrom_eq_ok_iff {produced : Nat} {last : Option (Option Float)}
    (hproduced : before.length = produced) (hlast : before.getLast? = last) :
    expandFrom produced last ts = .ok out ↔ ExpandsTo before ts out := by
  fun_induction expandFrom produced last ts generalizing before out with
  | case1 produced last =>
    rw [expandsTo_nil]
    simp [eq_comm]
  | case2 produced last token rest x hfloat ih =>
    have hrest (tail : List (Option Float)) : expandFrom (produced + 1) (some (some x)) rest = .ok tail ↔
        ExpandsTo (before ++ [some x]) rest tail := ih (by simp [hproduced]) (by simp)
    rw [expandsTo_number hfloat, bind_return_eq_ok]
    simp only [hrest]
  | case3 produced last token rest hfloat hread =>
    rw [expandsTo_cons]
    simp [not_piece hfloat hread]
  | case4 produced last token rest hfloat shorthand hread hlong =>
    rw [expandsTo_cons]
    simp only [piece_shorthand_iff hread, hproduced, Nat.not_le.mpr hlong]
    simp
  | case5 produced token rest hfloat n entry hread hshort ih =>
    have hrest (tail : List (Option Float)) : expandFrom (produced + n) (some entry) rest = .ok tail ↔
        ExpandsTo (before ++ List.replicate n entry) rest tail := by
      apply ih
      · simp [hproduced]
      · rw [getLast?_append_replicate n hlast, ite_self]
    rw [expandsTo_piece hread hproduced hshort fun _ => adds_copies_iff hlast, bind_return_eq_ok]
    simp only [hrest]
  | case6 produced token rest hfloat factor x hread hshort ih =>
    have hrest (tail : List (Option Float)) :
        expandFrom (produced + 1) (some (some (x * factor))) rest = .ok tail ↔
          ExpandsTo (before ++ [some (x * factor)]) rest tail := ih (by simp [hproduced]) (by simp)
    rw [expandsTo_piece hread hproduced hshort fun _ => adds_multiple_iff hlast, bind_return_eq_ok]
    simp only [hrest, List.singleton_append]
  | case7 produced last token rest hfloat n hread hshort ih =>
    have hrest (tail : List (Option Float)) :
        expandFrom (produced + n) (if n = 0 then last else some none) rest = .ok tail ↔
          ExpandsTo (before ++ List.replicate n none) rest tail :=
      ih (by simp [hproduced]) (getLast?_append_replicate n hlast)
    rw [expandsTo_piece hread hproduced hshort fun _ => adds_jumps_iff, bind_return_eq_ok]
    simp only [hrest]
  | case8 produced token hfloat shorthand start hcopies hmultiple hjumps hread hshort =>
    rw [expandsTo_interpolation hread hproduced hshort hcopies hmultiple hjumps hlast]
    simp
  | case9 produced token hfloat shorthand start hcopies hmultiple hjumps next rest hnext hread hshort =>
    rw [expandsTo_interpolation hread hproduced hshort hcopies hmultiple hjumps hlast]
    simp [hnext]
  | case10 produced token hfloat shorthand start hcopies hmultiple hjumps next rest stop hnext hbetween
      hread hshort =>
    rw [expandsTo_interpolation hread hproduced hshort hcopies hmultiple hjumps hlast]
    simp [hnext, hbetween]
  | case11 produced token hfloat shorthand start hcopies hmultiple hjumps next rest stop hnext points
      hbetween hread hshort ih =>
    have hrest (tail : List (Option Float)) :
        expandFrom (produced + points.length + 1) (some (some stop)) rest = .ok tail ↔
          ExpandsTo (before ++ points.map some ++ [some stop]) rest tail :=
      ih (by simp [hproduced]; omega) (by simp)
    rw [expandsTo_interpolation hread hproduced hshort hcopies hmultiple hjumps hlast,
      bind_return_eq_ok]
    simp [hrest, hnext, hbetween]
  | case12 produced last token rest hfloat shorthand hread hshort hjumps hstart hcopies hmultiple =>
    have hnone : ∀ piece, ¬ shorthand.Adds before (rest.head?.bind readFloat?) piece :=
      fun _ => not_adds hlast hcopies hmultiple hjumps hstart
    rw [expandsTo_shorthand hread hproduced hshort]
    simp [hnone]

end Entries

def entryCount (token : String) : Nat :=
  if (readFloat? token).isSome then 1
  else ((Shorthand.read? token).map Shorthand.count).getD 0

section Places

variable {before piece : List (Option Float)} {ts : List String}
  {pieces : List (List (Option Float))}

theorem Shorthand.Adds.length_eq {s : Shorthand} {stop : Option Float} (h : s.Adds before stop piece) :
    piece.length = s.count := by
  cases h <;> simp [Shorthand.count, linearPoints, logarithmicPoints]

theorem length_piece {next : Option String} {token : String} (h : Piece before next token piece) :
    piece.length = entryCount token := by
  rcases h with ⟨x, hx, rfl⟩ | ⟨s, hwritten, hfits, hadds⟩
  · simp [entryCount, hx]
  · simp [entryCount, hwritten.readFloat?_eq, read?_of_fits hwritten hfits, hadds.length_eq]

namespace Expands

/-- A number stands where the counts of the tokens before it add up to. -/
theorem getElem?_number (h : Expands before ts pieces) {i : Nat} {token : String} {x : Float}
    (htoken : ts[i]? = some token) (hx : readFloat? token = some x) :
    pieces.flatten[((ts.take i).map entryCount).sum]? = some (some x) := by
  induction h generalizing i with
  | nil => simp at htoken
  | cons first others ih =>
    cases i with
    | zero =>
      cases Option.some.inj htoken
      cases (piece_number_iff hx).mp first
      rfl
    | succ i =>
      rw [List.take_succ_cons, List.map_cons, List.sum_cons, List.flatten_cons, ← length_piece first,
        List.getElem?_append_right (Nat.le_add_right _ _), Nat.add_sub_cancel_left]
      exact ih htoken

/-- A shorthand stays within the limit, so only numbers take the entries past it, by one each. -/
theorem length_le (h : Expands before ts pieces) {extra : Nat}
    (hbefore : before.length ≤ maxExpandedLength + extra) :
    before.length + pieces.flatten.length ≤
      maxExpandedLength + extra + ts.countP fun token => (readFloat? token).isSome := by
  induction h generalizing extra with
  | nil => simpa using hbefore
  | @cons before piece token rest pieces first others ih =>
    rw [List.flatten_cons, List.length_append, List.countP_cons]
    rcases first with ⟨x, hx, rfl⟩ | ⟨s, hwritten, hfits, hadds⟩
    · have hlater := @ih (extra + 1) (by simp; omega)
      simp only [List.length_append, List.length_singleton] at hlater
      simp only [hx, Option.isSome_some, if_true, List.length_singleton]
      omega
    · have hlater := @ih extra (by
        rw [List.length_append, hadds.length_eq]
        omega)
      rw [List.length_append] at hlater
      omega

end Expands

end Places

/-- A list of numbers is read exactly if each token has its piece, and what is read are the pieces one
after the other. Then every number written out stands where the counts before it add up to, and there
are no more entries than the limit and the numbers written out. -/
theorem expandValues_exact (ts : List String) :
    (∀ out, expandValues ts = .ok out ↔ ∃ pieces, Expands [] ts pieces ∧ out = pieces.flatten) ∧
    ∀ out, expandValues ts = .ok out →
      (∀ i token x, ts[i]? = some token → readFloat? token = some x →
        out[((ts.take i).map entryCount).sum]? = some (some x)) ∧
      out.length ≤ maxExpandedLength + ts.countP fun token => (readFloat? token).isSome := by
  have hread (out : List (Option Float)) : expandValues ts = .ok out ↔ ExpandsTo [] ts out :=
    expandFrom_eq_ok_iff rfl rfl
  refine ⟨hread, fun out hout => ?_⟩
  obtain ⟨pieces, hpieces, rfl⟩ := (hread out).mp hout
  refine ⟨fun i token x htoken hx => hpieces.getElem?_number htoken hx, ?_⟩
  have hlength := hpieces.length_le (Nat.zero_le (maxExpandedLength + 0))
  rwa [List.length_nil, Nat.zero_add, Nat.add_zero] at hlength

def mixedList : List String := ["1", "R", "2i", "4", "3m", "2j", "9"]

theorem entries_of_mixedList : ∃ out, expandValues mixedList = .ok out ∧
    out = [some 1, some 1, some 2, some 3, some 4, some 12, none, none, some 9] ∧
    (∃ pieces, Expands [] mixedList pieces ∧ out = pieces.flatten) ∧ out[8]? = some (some 9) ∧
    out.length ≤ maxExpandedLength + 3 := by
  have hentries : (expandValues mixedList).toOption =
      some [some 1, some 1, some 2, some 3, some 4, some 12, none, none, some 9] := by decide +kernel
  have hread := ok_of_toOption hentries
  obtain ⟨hiff, hplaces⟩ := expandValues_exact mixedList
  obtain ⟨hnumber, hlength⟩ := hplaces _ hread
  have hnine := hnumber 6 "9" 9 rfl (by decide +kernel)
  have hplace : ((mixedList.take 6).map entryCount).sum = 8 := by decide +kernel
  have hnumbers : (mixedList.countP fun token => (readFloat? token).isSome) = 3 := by
    decide +kernel
  rw [hplace] at hnine
  rw [hnumbers] at hlength
  exact ⟨_, hread, rfl, (hiff _).mp hread, hnine, hlength⟩

end TransportDeck.Number
