import TransportDeck.Proofs.Card.Fills
import TransportDeck.Proofs.Text.Stops

/-!
Lattice fills without repeats. A repeat only saves writing: the copies may as well be written out, each
with the transformation of the entry, and the fill stays the same.
-/

namespace TransportDeck.Card

open Number

/-- A token that repeats the entry before it. -/
def IsRepeat (token : String) : Prop :=
  ∃ n, Shorthand.read? token = some (.copies n)

structure EntryTokens where
  target : String
  transform : List String := []

namespace EntryTokens

def toList (t : EntryTokens) : List String := t.target :: t.transform

def copies (n : Nat) (last : Option EntryTokens) : List String :=
  (List.replicate n (last.elim [] toList)).flatten

end EntryTokens

/-- The tokens with each repeat written out. The tokens of the entry before them are `last`. -/
def writtenOut (last : Option EntryTokens) : List String → List String
  | [] => []
  | token :: rest =>
    if token = "(" then
      let group := token :: rest.takeWhile (· != ")") ++ [")"]
      group ++ writtenOut (last.map fun t => { t with transform := group })
        (rest.dropWhile (· != ")")).tail
    else
      match Shorthand.read? token with
      | some (.copies n) => EntryTokens.copies n last ++ writtenOut last rest
      | _ => token :: writtenOut (some { target := token }) rest
termination_by ts => ts.length
decreasing_by
  · have := (List.dropWhile_sublist (· != ")") (l := rest)).length_le
    simp only [List.length_tail, List.length_cons]
    omega
  · simp
  · simp

section Parentheses

variable {inner : List String}

/-- Parentheses end at the first one that closes. -/
theorem upToClose (rest : List String) (h : ")" ∉ inner) :
    (inner ++ ")" :: rest).takeWhile (· != ")") = inner ∧
      (inner ++ ")" :: rest).dropWhile (· != ")") = ")" :: rest := by
  apply takeWhile_dropWhile_append
  · intro t ht
    exact bne_iff_ne.mpr fun heq => h (heq ▸ ht)
  · rintro _ ⟨⟩
    rfl

/-- Tokens up to the first parenthesis that closes. -/
theorem exists_inner {ts after : List String} {close : String}
    (h : ts.dropWhile (· != ")") = close :: after) :
    ∃ inner, ")" ∉ inner ∧ ts = inner ++ ")" :: after ∧ ts.takeWhile (· != ")") ++ [close] =
      inner ++ [")"] := by
  have hclose : close = ")" := by
    have hnot := List.head?_dropWhile_not (· != ")") ts
    rw [h] at hnot
    simpa using hnot
  subst hclose
  refine ⟨ts.takeWhile (· != ")"), fun hmem => ?_, ?_, rfl⟩
  · have hne := List.mem_takeWhile_imp hmem
    simp at hne
  · rw [← h, List.takeWhile_append_dropWhile]

end Parentheses

section Steps

variable {degrees : Bool} {limit : Nat} {entries : List FillEntry} {token : String}

theorem not_isRepeat_of_readInt? {n : Int} (h : readInt? token = some n) : ¬ IsRepeat token := by
  rintro ⟨k, hrepeat⟩
  rw [Shorthand.readInt?_eq_none hrepeat] at h
  cases h

theorem not_isRepeat_of_readInt32? {n : Int} (h : readInt32? token = some n) : ¬ IsRepeat token :=
  not_isRepeat_of_readInt? (Option.filter_eq_some_iff.mp h).1

theorem not_isRepeat_of_readFloat? {x : Float} (h : readFloat? token = some x) :
    ¬ IsRepeat token := by
  rintro ⟨k, hrepeat⟩
  rw [Shorthand.readFloat?_eq_none hrepeat] at h
  cases h

theorem ne_open_of_readInt32? {u : Int} (h : readInt32? token = some u) : token ≠ "(" := by
  rintro rfl
  rw [show readInt32? "(" = none by decide +kernel] at h
  cases h

theorem ne_open_of_isRepeat (h : IsRepeat token) : token ≠ "(" := by
  rintro rfl
  obtain ⟨n, hn⟩ := h
  rw [show Shorthand.read? "(" = none by decide +kernel] at hn
  cases hn

theorem readEntries_nil : readEntries degrees limit entries [] = .ok entries := by
  rw [readEntries]

theorem readEntries_cons {rest : List String} (h : token ≠ "(") :
    readEntries degrees limit entries (token :: rest) =
      pushEntry limit token entries >>= fun more => readEntries degrees limit more rest := by
  rw [readEntries, if_neg h]

theorem readEntries_group {inner rest : List String} (h : ")" ∉ inner) :
    readEntries degrees limit entries ("(" :: inner ++ ")" :: rest) =
      readTransformSpec degrees ("(" :: inner ++ [")"]) >>= fun spec =>
        transformLast spec entries >>= fun more => readEntries degrees limit more rest := by
  obtain ⟨htake, hdrop⟩ := upToClose rest h
  rw [List.cons_append, readEntries, if_pos rfl]
  split
  · next hnone =>
    rw [hdrop] at hnone
    cases hnone
  · next close after hsome =>
    rw [hdrop] at hsome
    cases hsome
    rw [htake]

theorem not_isRepeat_of_readId {n : Nat} (h : readId token = .ok n) : ¬ IsRepeat token := by
  have hcardinal := (Option.filter_eq_some_iff.mp (orFault_eq_ok.mp h)).1
  unfold readCardinal? at hcardinal
  split at hcardinal
  · next m hint => exact not_isRepeat_of_readInt? hint
  · cases hcardinal

/-- No token between the parentheses of a transformation repeats an entry. -/
theorem not_isRepeat_of_readInlined {inner : List String} {spec : TransformSpec}
    (h : readInlined degrees inner = .ok spec) : ∀ t ∈ inner, ¬ IsRepeat t := by
  unfold readInlined at h
  split at h
  · next only =>
    obtain ⟨n, hid, _⟩ := map_eq_ok.mp h
    exact List.forall_mem_singleton.mpr (not_isRepeat_of_readId hid)
  · obtain ⟨values, hvalues, -⟩ := bind_eq_ok.mp h
    intro t ht
    obtain ⟨x, hx⟩ := exists_of_mapM_eq_ok hvalues t ht
    exact not_isRepeat_of_readFloat? (orFault_eq_ok.mp hx)

theorem not_isRepeat_of_mem_group {inner : List String} {spec : TransformSpec}
    (h : readTransformSpec degrees ("(" :: inner ++ [")"]) = .ok spec) :
    ∀ t ∈ "(" :: inner ++ [")"], ¬ IsRepeat t := by
  have hinlined : readInlined degrees inner = .ok spec := by
    rw [List.cons_append, readTransformSpec, if_pos List.getLast?_concat, List.dropLast_concat] at h
    · exact h
    · simp
  have hbracket (t : String) (ht : Shorthand.read? t = none) : ¬ IsRepeat t := by
    rintro ⟨n, hn⟩
    rw [ht] at hn
    cases hn
  simp only [List.cons_append, List.forall_mem_cons, List.forall_mem_append, List.not_mem_nil,
    false_imp_iff, implies_true, and_true]
  exact ⟨hbracket _ (by decide +kernel), not_isRepeat_of_readInlined hinlined,
    hbracket _ (by decide +kernel)⟩

end Steps

inductive EntryRun (degrees : Bool) (limit : Nat) :
    List FillEntry → List String → List FillEntry → Prop
  | done {entries : List FillEntry} : EntryRun degrees limit entries [] entries
  | target {entries result : List FillEntry} {token : String} {rest : List String} {u : Int}
    (number : readInt32? token = some u)
    (others : EntryRun degrees limit ({ signedUniverse := u } :: entries) rest result) :
    EntryRun degrees limit entries (token :: rest) result
  | copies {last : FillEntry} {earlier result : List FillEntry} {token : String}
    {rest : List String} {n : Nat} (shorthand : Shorthand.read? token = some (.copies n))
    (fits : (last :: earlier).length + n ≤ limit)
    (others : EntryRun degrees limit (List.replicate n last ++ last :: earlier) rest result) :
    EntryRun degrees limit (last :: earlier) (token :: rest) result
  | transform {last : FillEntry} {earlier result : List FillEntry} {inner rest : List String}
    {spec : TransformSpec} (closed : ")" ∉ inner)
    (read : readTransformSpec degrees ("(" :: inner ++ [")"]) = .ok spec)
    (others : EntryRun degrees limit ({ last with transform := some spec } :: earlier) rest result) :
    EntryRun degrees limit (last :: earlier) ("(" :: inner ++ [")"] ++ rest) result

/-- Tokens are read exactly if they have a run. -/
theorem readEntries_eq_ok_iff {degrees : Bool} {limit : Nat} {entries result : List FillEntry}
    {ts : List String} :
    readEntries degrees limit entries ts = .ok result ↔ EntryRun degrees limit entries ts result := by
  constructor
  · intro h
    fun_induction readEntries degrees limit entries ts with
    | case1 entries =>
      cases h
      exact .done
    | case2 => cases h
    | case3 entries rest close after hclosed ih =>
      obtain ⟨inner, hinner, rfl, hgroup⟩ := exists_inner hclosed
      obtain ⟨spec, hspec, h⟩ := bind_eq_ok.mp h
      obtain ⟨changed, hlast, h⟩ := bind_eq_ok.mp h
      rw [List.cons_append, hgroup] at hspec
      cases entries with
      | nil => cases hlast
      | cons last earlier =>
        cases hlast
        have hrun := EntryRun.transform hinner hspec (ih _ h)
        rwa [List.append_assoc] at hrun
    | case4 entries token rest hopen ih =>
      obtain ⟨more, hpush, h⟩ := bind_eq_ok.mp h
      rcases pushEntry_eq_ok_iff.mp hpush with ⟨u, hu, rfl⟩ | ⟨n, last, earlier, hn, rfl, hfits, rfl⟩
      · exact .target hu (ih _ h)
      · exact .copies hn hfits (ih _ h)
  · intro h
    induction h with
    | done => exact readEntries_nil
    | target number others ih =>
      rw [readEntries_cons (ne_open_of_readInt32? number), pushEntry_eq_ok_iff.mpr (.inl ⟨_, number, rfl⟩)]
      exact ih
    | copies shorthand fits others ih =>
      rw [readEntries_cons (ne_open_of_isRepeat ⟨_, shorthand⟩),
        pushEntry_eq_ok_iff.mpr (.inr ⟨_, _, _, shorthand, rfl, fits, rfl⟩)]
      exact ih
    | transform closed read others ih =>
      rw [List.append_assoc, List.singleton_append, readEntries_group closed, read]
      exact ih

/-- An entry as written: its tokens add just the entry, whatever stands before and after them. -/
structure EntryTokens.Spells (degrees : Bool) (t : EntryTokens) (e : FillEntry) : Prop where
  target : readInt32? t.target = some e.signedUniverse
  adds : ∀ {limit : Nat} {earlier result : List FillEntry} {rest : List String},
    EntryRun degrees limit (e :: earlier) rest result →
      EntryRun degrees limit earlier (t.toList ++ rest) result
  notRepeat : ∀ token ∈ t.toList, ¬ IsRepeat token

section Spells

variable {degrees : Bool} {t : EntryTokens} {e : FillEntry}

theorem EntryTokens.spells_target {token : String} {u : Int} (h : readInt32? token = some u) :
    EntryTokens.Spells degrees { target := token } { signedUniverse := u } where
  target := h
  adds hrun := .target h hrun
  notRepeat := List.forall_mem_singleton.mpr (not_isRepeat_of_readInt32? h)

/-- A transformation in parentheses takes the place of one that the entry has already. -/
theorem EntryTokens.Spells.transform {inner : List String} {spec : TransformSpec}
    (h : t.Spells degrees e) (hinner : ")" ∉ inner)
    (hspec : readTransformSpec degrees ("(" :: inner ++ [")"]) = .ok spec) :
    EntryTokens.Spells degrees { t with transform := "(" :: inner ++ [")"] }
      { e with transform := some spec } where
  target := h.target
  adds hrun := .target h.target (.transform hinner hspec hrun)
  notRepeat := List.forall_mem_cons.mpr
    ⟨not_isRepeat_of_readInt32? h.target, not_isRepeat_of_mem_group hspec⟩

theorem EntryTokens.Spells.copies (h : t.Spells degrees e) {n limit : Nat}
    {earlier result : List FillEntry} {rest : List String}
    (hrun : EntryRun degrees limit (List.replicate n e ++ earlier) rest result) :
    EntryRun degrees limit earlier (EntryTokens.copies n (some t) ++ rest) result := by
  unfold EntryTokens.copies
  rw [Option.elim_some]
  induction n generalizing earlier with
  | zero => exact hrun
  | succ n ih =>
    rw [List.replicate_succ, List.flatten_cons, List.append_assoc]
    rw [List.replicate_succ', List.append_assoc, List.singleton_append] at hrun
    exact h.adds (ih hrun)

theorem EntryTokens.Spells.notRepeat_copies (h : t.Spells degrees e) (n : Nat) :
    ∀ token ∈ EntryTokens.copies n (some t), ¬ IsRepeat token := by
  intro token htoken
  obtain ⟨tokens, htokens, htoken⟩ := List.mem_flatten.mp htoken
  rw [List.eq_of_mem_replicate htokens] at htoken
  exact h.notRepeat token htoken

end Spells

def Follows (degrees : Bool) (last : Option EntryTokens) (entries : List FillEntry) : Prop :=
  ∀ e ∈ entries.head?, ∃ t ∈ last, t.Spells degrees e

section WrittenOut

variable {degrees : Bool} {last : Option EntryTokens} {token : String} {rest : List String}

theorem EntryTokens.Spells.follows {t : EntryTokens} {e : FillEntry} {entries : List FillEntry}
    (h : t.Spells degrees e) (hhead : entries.head? = some e) : Follows degrees (some t) entries := by
  rw [Follows, hhead]
  rintro _ ⟨⟩
  exact ⟨t, rfl, h⟩

theorem writtenOut_group {inner : List String} (h : ")" ∉ inner) :
    writtenOut last ("(" :: inner ++ [")"] ++ rest) = "(" :: inner ++ [")"] ++
      writtenOut (last.map fun t => { t with transform := "(" :: inner ++ [")"] }) rest := by
  obtain ⟨htake, hdrop⟩ := upToClose rest h
  rw [List.append_assoc, List.singleton_append, List.cons_append, writtenOut, if_pos rfl, htake, hdrop]
  rfl

theorem writtenOut_repeat {n : Nat} (h : Shorthand.read? token = some (.copies n)) :
    writtenOut last (token :: rest) = EntryTokens.copies n last ++ writtenOut last rest := by
  rw [writtenOut, if_neg (ne_open_of_isRepeat ⟨n, h⟩), h]

theorem writtenOut_target {u : Int} (h : readInt32? token = some u) :
    writtenOut last (token :: rest) = token :: writtenOut (some { target := token }) rest := by
  rw [writtenOut, if_neg (ne_open_of_readInt32? h)]
  split
  · next n hn => exact absurd ⟨n, hn⟩ (not_isRepeat_of_readInt32? h)
  · rfl

/-- Written out, the tokens add the same entries without a repeat, and then no limit matters. The
induction carries along the tokens of the last entry. -/
theorem EntryRun.writtenOut {limit : Nat} {entries result : List FillEntry} {ts : List String}
    (h : EntryRun degrees limit entries ts result) (hlast : Follows degrees last entries)
    (limit' : Nat) :
    EntryRun degrees limit' entries (Card.writtenOut last ts) result ∧
      ∀ token ∈ Card.writtenOut last ts, ¬ IsRepeat token := by
  induction h generalizing last with
  | done =>
    rw [Card.writtenOut]
    exact ⟨.done, fun t ht => absurd ht List.not_mem_nil⟩
  | @target entries result token rest u number others ih =>
    have ht : EntryTokens.Spells degrees { target := token } { signedUniverse := u } :=
      EntryTokens.spells_target number
    obtain ⟨hrun, hnone⟩ := ih (ht.follows rfl)
    rw [writtenOut_target number]
    exact ⟨ht.adds hrun, List.forall_mem_cons.mpr ⟨ht.notRepeat _ List.mem_cons_self, hnone⟩⟩
  | @copies e earlier result token rest n shorthand fits others ih =>
    obtain ⟨t, rfl, ht⟩ := hlast e rfl
    -- every copy is written like the entry, so what comes next follows the last of them as well
    have hhead : (List.replicate n e ++ e :: earlier).head? = some e := by cases n <;> rfl
    obtain ⟨hrun, hnone⟩ := ih (ht.follows hhead)
    rw [writtenOut_repeat shorthand]
    exact ⟨ht.copies hrun, List.forall_mem_append.mpr ⟨ht.notRepeat_copies n, hnone⟩⟩
  | @transform e earlier result inner rest spec closed read others ih =>
    obtain ⟨t, rfl, ht⟩ := hlast e rfl
    obtain ⟨hrun, hnone⟩ := ih ((ht.transform closed read).follows rfl)
    rw [writtenOut_group closed]
    exact ⟨.transform closed read hrun,
      List.forall_mem_append.mpr ⟨not_isRepeat_of_mem_group read, hnone⟩⟩

theorem EntryRun.append {limit : Nat} {entries more result : List FillEntry} {earlier later : List String}
    (h : EntryRun degrees limit entries earlier more) (hlater : EntryRun degrees limit more later result) :
    EntryRun degrees limit entries (earlier ++ later) result := by
  induction h with
  | done => exact hlater
  | target number others ih => exact .target number (ih hlater)
  | copies shorthand fits others ih => exact .copies shorthand fits (ih hlater)
  | transform closed read others ih =>
    rw [List.append_assoc]
    exact .transform closed read (ih hlater)

/-- A repeat stands after the parentheses before it, since no token within them is one. -/
theorem exists_between_of_group {inner rest earlier later : List String}
    {spec : TransformSpec} (read : readTransformSpec degrees ("(" :: inner ++ [")"]) = .ok spec)
    (hrepeat : IsRepeat token)
    (hts : earlier ++ token :: later = "(" :: inner ++ [")"] ++ rest) :
    ∃ between, earlier = "(" :: inner ++ [")"] ++ between ∧ between ++ token :: later = rest := by
  rcases List.append_eq_append_iff.mp hts with ⟨found, hgroup, hsplit⟩ | ⟨between, rfl, rfl⟩
  · cases found with
    | nil => exact ⟨[], by rw [hgroup, List.append_nil, List.append_nil], hsplit⟩
    | cons first found =>
      have hmem : token ∈ "(" :: inner ++ [")"] := by
        rw [hgroup, (List.cons.inj hsplit).1]
        exact List.mem_append_right _ List.mem_cons_self
      exact absurd hrepeat (not_isRepeat_of_mem_group read token hmem)
  · exact ⟨between, rfl, rfl⟩

/-- A repeat takes the last entry before it, and its copies are within the limit. -/
theorem EntryRun.before_repeat {limit n : Nat} {entries result : List FillEntry}
    {earlier later : List String} (hrepeat : Shorthand.read? token = some (.copies n))
    (h : EntryRun degrees limit entries (earlier ++ token :: later) result) :
    ∃ last more, EntryRun degrees limit entries earlier (last :: more) ∧
      (last :: more).length + n ≤ limit ∧
      EntryRun degrees limit (List.replicate n last ++ last :: more) later result := by
  generalize hts : earlier ++ token :: later = ts at h
  induction h generalizing earlier with
  | done => simp at hts
  | target number others ih =>
    cases earlier with
    | nil =>
      cases hts
      exact absurd ⟨n, hrepeat⟩ (not_isRepeat_of_readInt32? number)
    | cons first earlier =>
      cases hts
      obtain ⟨last, more, hfirst, hfits, hlater⟩ := ih rfl
      exact ⟨last, more, .target number hfirst, hfits, hlater⟩
  | @copies last entries result found rest count shorthand fits others ih =>
    cases earlier with
    | nil =>
      cases hts
      obtain rfl : n = count := by
        rw [hrepeat] at shorthand
        cases shorthand
        rfl
      exact ⟨last, entries, .done, fits, others⟩
    | cons first earlier =>
      cases hts
      obtain ⟨last, more, hfirst, hfits, hlater⟩ := ih rfl
      exact ⟨last, more, .copies shorthand fits hfirst, hfits, hlater⟩
  | @transform e entries result inner rest spec closed read others ih =>
    obtain ⟨between, rfl, hrest⟩ := exists_between_of_group read ⟨n, hrepeat⟩ hts
    obtain ⟨last, more, hfirst, hfits, hlater⟩ := ih hrest
    exact ⟨last, more, .transform closed read hfirst, hfits, hlater⟩

/-- Up to a repeat and the copies it makes, the entries are within the limit. -/
theorem EntryRun.split_repeat {limit : Nat} {entries result : List FillEntry}
    {earlier later : List String} (hrepeat : IsRepeat token)
    (h : EntryRun degrees limit entries (earlier ++ token :: later) result) :
    ∃ more, EntryRun degrees limit entries (earlier ++ [token]) more ∧
      EntryRun degrees limit more later result ∧ more.length ≤ limit := by
  obtain ⟨n, hn⟩ := hrepeat
  obtain ⟨last, more, hfirst, hfits, hlater⟩ := h.before_repeat hn
  refine ⟨_, hfirst.append (.copies hn hfits .done), hlater, ?_⟩
  rw [List.length_append, List.length_replicate]
  omega

end WrittenOut

section Fills

variable {degrees : Bool} {values : List String} {a : FillArray}

theorem readArray_eq_ok_iff : readArray degrees values = .ok a ↔
    leadingRanges values = [(a.i.low, a.i.high), (a.j.low, a.j.high), (a.k.low, a.k.high)] ∧
      a.entries ≠ [] ∧ readEntries degrees (entryLimit a (values.drop 3).length) [] (values.drop 3) =
        .ok a.entries.reverse := by
  unfold readArray
  split
  · next i j k hranges =>
    constructor
    · intro h
      obtain ⟨entries, hentries, h⟩ := bind_eq_ok.mp h
      dsimp only at h
      split at h
      · cases h
      · next hne =>
        cases h
        rw [List.reverse_reverse]
        exact ⟨hranges, by simpa using hne, hentries⟩
    · rintro ⟨hread, hne, hentries⟩
      rw [hranges] at hread
      cases hread
      refine bind_eq_ok.mpr ⟨a.entries.reverse, hentries, ?_⟩
      simp [hne, pure, Except.pure]
  · next hother =>
    refine iff_of_false (fun h => by cases h) ?_
    rintro ⟨hread, -⟩
    exact hother _ _ _ hread

theorem leadingRanges_cons {first : String} {rest : List String} (h : readRange? first = none) :
    leadingRanges (first :: rest) = [] := by
  simp [leadingRanges, h]

theorem leadingRanges_take_append {more : List String} (h : (values.take 3).length = 3) :
    leadingRanges (values.take 3 ++ more) = leadingRanges values := by
  rw [leadingRanges, List.take_left' h, leadingRanges]

theorem readFill_eq_array_iff :
    readFill degrees values = .ok (.array a) ↔ readArray degrees values = .ok a := by
  cases values with
  | nil =>
    refine iff_of_false (fun h => by cases h) fun h => ?_
    cases (readArray_eq_ok_iff.mp h).1
  | cons first rest =>
    rw [readFill]
    cases hfirst : readRange? first with
    | some range =>
      rw [Option.isSome_some, if_pos rfl]
      cases readArray degrees (first :: rest) <;> simp [Functor.map, Except.map]
    | none =>
      refine iff_of_false (fun h => ?_) fun h => ?_
      · obtain ⟨target, -, h⟩ := bind_eq_ok.mp h
        obtain ⟨transform, -, h⟩ := bind_eq_ok.mp h
        cases h
      · have hranges := (readArray_eq_ok_iff.mp h).1
        rw [leadingRanges_cons hfirst] at hranges
        cases hranges

/-- Writing the repeats of a lattice out gives the same lattice. The entries are within the limit after
each repeat, and at the end no more than the tokens past it. -/
theorem readFill_writtenOut (h : readFill degrees values = .ok (.array a)) :
    let written := values.drop 3
    let limit := max written.length (min (a.declaredLength?.getD 0) maxExpandedLength)
    readFill degrees (values.take 3 ++ writtenOut none written) = .ok (.array a) ∧
      (∀ token ∈ writtenOut none written, ¬ IsRepeat token) ∧
      (∀ earlier token later, written = earlier ++ token :: later → IsRepeat token →
        ∃ entries, readEntries degrees limit [] (earlier ++ [token]) = .ok entries ∧
          readEntries degrees limit entries later = .ok a.entries.reverse ∧
          entries.length ≤ limit) ∧
      a.entries.length ≤ limit + written.length := by
  intro written limit
  obtain ⟨hranges, hne, hread⟩ := readArray_eq_ok_iff.mp (readFill_eq_array_iff.mp h)
  have hlimit : entryLimit a written.length = limit := max_comm _ _
  rw [hlimit] at hread
  have hrun : EntryRun degrees limit [] written a.entries.reverse := readEntries_eq_ok_iff.mp hread
  have hthree : (values.take 3).length = 3 := by
    have hle := length_leadingRanges_le values
    rw [hranges] at hle
    exact List.length_take_of_le hle
  have hfollows : Follows degrees none [] := fun e he => by cases he
  have hwritten (limit' : Nat) := hrun.writtenOut hfollows limit'
  refine ⟨?_, (hwritten limit).2, fun earlier token later hsplit hrepeat => ?_, ?_⟩
  · rw [readFill_eq_array_iff, readArray_eq_ok_iff, leadingRanges_take_append hthree,
      List.drop_left' hthree]
    exact ⟨hranges, hne, readEntries_eq_ok_iff.mpr (hwritten _).1⟩
  · rw [hsplit] at hrun
    obtain ⟨entries, hfirst, hlater, hle⟩ := hrun.split_repeat hrepeat
    exact ⟨entries, readEntries_eq_ok_iff.mpr hfirst, readEntries_eq_ok_iff.mpr hlater, hle⟩
  · have hnone : EntriesWithin limit 0 [] := ⟨by simp, Nat.zero_le _⟩
    calc a.entries.length
        = a.entries.reverse.length := List.length_reverse.symm
      _ ≤ limit + (0 + written.length) := (hnone.run hread).length_le
      _ = limit + written.length := by rw [Nat.zero_add]

def repeatedFill : List String :=
  ["0:2", "0:2", "0:0", "1", "(", "3", ")", "2r", "0R", "(", "4", ")", "r", "2"]

theorem entries_of_repeatedFill : ∃ a, readFill false repeatedFill = .ok (.array a) ∧
    a.entries.map (·.signedUniverse) = [1, 1, 1, 1, 2] ∧
    a.entries.map (·.transform) = [some (.reference 3), some (.reference 3), some (.reference 4),
      some (.reference 4), none] ∧
    readFill false ["0:2", "0:2", "0:0", "1", "(", "3", ")", "1", "(", "3", ")", "1", "(", "3", ")",
      "(", "4", ")", "1", "(", "4", ")", "2"] = .ok (.array a) ∧
    ∃ entries, readEntries false 11 [] ["1", "(", "3", ")", "2r", "0R", "(", "4", ")", "r"] =
      .ok entries ∧ entries.length ≤ 11 := by
  have hfill : (readFill false repeatedFill).toOption = some (.array ⟨⟨0, 2⟩, ⟨0, 2⟩, ⟨0, 0⟩,
      [⟨1, some (.reference 3)⟩, ⟨1, some (.reference 3)⟩, ⟨1, some (.reference 4)⟩,
        ⟨1, some (.reference 4)⟩, ⟨2, none⟩]⟩) := by decide +kernel
  have hwritten : writtenOut none (repeatedFill.drop 3) = ["1", "(", "3", ")", "1", "(", "3", ")",
      "1", "(", "3", ")", "(", "4", ")", "1", "(", "4", ")", "2"] := by decide +kernel
  have hrepeat : IsRepeat "r" := ⟨1, by decide +kernel⟩
  obtain ⟨hsame, -, hwithin, -⟩ := readFill_writtenOut (ok_of_toOption hfill)
  rw [hwritten] at hsame
  obtain ⟨entries, hread, -, hle⟩ :=
    hwithin ["1", "(", "3", ")", "2r", "0R", "(", "4", ")"] "r" ["2"] rfl hrepeat
  exact ⟨_, ok_of_toOption hfill, rfl, rfl, hsame, entries, hread, hle⟩

end Fills

end TransportDeck.Card
