import TransportDeck.Card.Tally
import TransportDeck.Proofs.Number.Numerals
import TransportDeck.Proofs.Text.Tokens

/-!
Bins of a tally. A body is a list of bins written with any blanks between their parts, and what is read
from it are the numbers of the bins in order: those at the first level refer to what the tally counts in,
those at the deeper levels of a chain to cells.
-/

namespace TransportDeck.Card

open Number

structure BinNumber where
  value : Nat
  pos : 0 < value
  le_maxId : value ≤ maxId

structure BinIndex where
  text : List Char
  unclosed : ']' ∉ text

/-- The bins at one level of a chain, of which there is at least one: a number, a union in parentheses, or
some bins followed by others. -/
inductive LevelBins
  | number (n : BinNumber) (index : Option BinIndex)
  | union (members : LevelBins) (index : Option BinIndex)
  | append (front back : LevelBins)

/-- A bin: a number, the total, or a chain of levels in parentheses. -/
inductive Bin
  | number (n : BinNumber) (index : Option BinIndex)
  | total
  | chain (first : LevelBins) (deeper : List LevelBins) (index : Option BinIndex)

section Refs

def LevelBins.numbers : LevelBins → List Nat
  | number n _ => [n.value]
  | union members _ => members.numbers
  | append front back => front.numbers ++ back.numbers

def LevelBins.refs (entity : Entity) (bins : LevelBins) : List TallyRef :=
  bins.numbers.map fun n => ⟨entity, n⟩

def Bin.refs (entity : Entity) : Bin → List TallyRef
  | number n _ => [⟨entity, n.value⟩]
  | total => []
  | chain first deeper _ => first.refs entity ++ deeper.flatMap (LevelBins.refs .cell)

theorem LevelBins.numbers_ne_nil (bins : LevelBins) : bins.numbers ≠ [] := by
  induction bins with
  | number n index => exact List.cons_ne_nil n.value []
  | union members index ih => exact ih
  | append front back ihFront ihBack => exact List.append_ne_nil_of_left_ne_nil ihFront back.numbers

/-- Only the total refers to nothing. -/
theorem Bin.refs_ne_nil {bin : Bin} (h : bin ≠ .total) (entity : Entity) : bin.refs entity ≠ [] := by
  cases bin with
  | number n index => exact List.cons_ne_nil _ []
  | total => exact absurd rfl h
  | chain first deeper index =>
    exact List.append_ne_nil_of_left_ne_nil (mt List.map_eq_nil_iff.mp first.numbers_ne_nil) _

end Refs

section Pieces

inductive BinPiece
  | number (n : BinNumber)
  | total
  | opening
  | closing
  | deeper
  | index (i : BinIndex)

def indexPieces (index : Option BinIndex) : List BinPiece :=
  index.toList.map BinPiece.index

def LevelBins.pieces : LevelBins → List BinPiece
  | number n index => .number n :: indexPieces index
  | union members index => .opening :: (members.pieces ++ .closing :: indexPieces index)
  | append front back => front.pieces ++ back.pieces

def Bin.pieces : Bin → List BinPiece
  | number n index => .number n :: indexPieces index
  | total => [.total]
  | chain first deeper index =>
    .opening :: (first.pieces ++
      (deeper.flatMap (fun level => .deeper :: level.pieces) ++ .closing :: indexPieces index))

namespace BinPiece

/-- The text stands for the piece. Zeros may stand in front of a number. -/
def Spells : BinPiece → List Char → Prop
  | number n, text => Numeral n.value text
  | total, text => text = ['t'] ∨ text = ['T']
  | opening, text => text = ['(']
  | closing, text => text = [')']
  | deeper, text => text = ['<']
  | index i, text => text = '[' :: (i.text ++ [']'])

def isWord : BinPiece → Bool
  | number _ | total => true
  | _ => false

end BinPiece

def binDelimiters : List Char := ['(', ')', '<', '[', ']']

theorem not_isBlank_of_mem_binDelimiters : ∀ d ∈ binDelimiters, Text.isBlank d = false := by
  simp [binDelimiters, Text.isBlank]

theorem not_binDelimiter_of_isDigit {c : Char} (h : c.isDigit = true) :
    binDelimiters.contains c = false := by
  rw [Bool.eq_false_iff, Ne, List.contains_iff_mem]
  intro hmem
  simp only [binDelimiters, List.mem_cons, List.not_mem_nil, or_false] at hmem
  rcases hmem with rfl | rfl | rfl | rfl | rfl <;> exact absurd h (by decide)

inductive Written : List BinPiece → List Char → Prop
  | nil {blanks : List Char} (hblanks : ∀ c ∈ blanks, Text.isBlank c = true) : Written [] blanks
  | cons {piece : BinPiece} {pieces : List BinPiece} {blanks spelling text : List Char}
      (hblanks : ∀ c ∈ blanks, Text.isBlank c = true) (hspelling : piece.Spells spelling)
      (hend : piece.isWord = true → Text.EndsWord binDelimiters text)
      (hrest : Written pieces text) : Written (piece :: pieces) (blanks ++ (spelling ++ text))

end Pieces

section Steps

variable {entity : Entity} {p : BinPlace} {rest : List String} {text : List Char}

theorem readBins_opening (h : p.bracketed = false) :
    readBins entity p ("(" :: rest) = readBins entity { p with depth := p.depth + 1 } rest := by
  simp [readBins, h]

theorem readBins_closing (h : p.bracketed = false) :
    readBins entity p (")" :: rest) = readBins entity p.close rest := by
  simp [readBins, h]

theorem readBins_deeper (h : p.bracketed = false) :
    readBins entity p ("<" :: rest) = readBins entity { p with level := p.level + 1 } rest := by
  simp [readBins, h]

theorem readBins_total (h : p.bracketed = false) :
    readBins entity p ("t" :: rest) = readBins entity p rest := by
  simp [readBins, h, isPlainBin]

theorem readBins_number {n : BinNumber} {digits : List Char} (h : p.bracketed = false)
    (hdigits : Numeral n.value digits) : readBins entity p (String.ofList digits :: rest) =
      ([⟨levelEntity entity p.level, n.value⟩] ++ ·) <$> readBins entity p rest := by
  have hread : readId (String.ofList digits) = .ok n.value := by
    have hid : readId? (String.ofList digits) = some n.value :=
      hdigits.readId?_eq n.pos n.le_maxId
    rw [readId, hid]
    rfl
  have hne (c : Char) (hc : c.isDigit = false) : String.ofList digits ≠ String.ofList [c] :=
    fun heq => hdigits.ne_cons hc [] (String.ofList_injective heq)
  have hplain : isPlainBin (String.ofList digits) = false := by
    obtain ⟨digit, more, hcons⟩ := List.exists_cons_of_ne_nil hdigits.ne_nil
    have hu : 'u' ≠ digit := fun hu => hdigits.ne_cons (c := 'u') rfl more (hu ▸ hcons)
    rw [isPlainBin, Bool.or_eq_false_iff, beq_eq_false_iff_ne, String.toList_ofList]
    refine ⟨hne 't' rfl, ?_⟩
    rw [hcons, List.isPrefixOf_cons_cons, beq_eq_false_iff_ne.mpr hu, Bool.false_and]
  rw [readBins, if_neg (hne '[' rfl), if_neg (hne ']' rfl), if_neg (by simp [h]), if_neg (hne '(' rfl),
    if_neg (hne ')' rfl), if_neg (hne '<' rfl), if_neg (by simp [hplain]), hread]
  cases readBins entity p rest <;> rfl

/-- Everything up to the closing bracket is passed over. -/
theorem readBins_index (h : p.bracketed = false) {ts : List String} (hts : "]" ∉ ts) :
    readBins entity p ("[" :: (ts ++ "]" :: rest)) = readBins entity p rest := by
  have hskip : readBins entity { p with bracketed := true } (ts ++ "]" :: rest) =
      readBins entity { p with bracketed := false } rest := by
    induction ts with
    | nil => simp [readBins]
    | cons token ts ih =>
      obtain ⟨htoken, hts⟩ := List.ne_and_not_mem_of_not_mem_cons hts
      rw [List.cons_append, readBins, if_neg htoken.symm, ih hts]
      simp
  have hplace : { p with bracketed := false } = p := by rw [← h]
  rw [readBins, if_pos rfl, hskip, hplace]

end Steps

section Runs

variable {entity : Entity} {p : BinPlace}

def BinPiece.next (p : BinPlace) : BinPiece → BinPlace
  | opening => { p with depth := p.depth + 1 }
  | closing => p.close
  | deeper => { p with level := p.level + 1 }
  | number _ | total | index _ => p

def BinPiece.refs (entity : Entity) (p : BinPlace) : BinPiece → List TallyRef
  | number n => [⟨levelEntity entity p.level, n.value⟩]
  | _ => []

/-- One piece is read, and the rest from the place after it. -/
theorem BinPiece.readBins_append {piece : BinPiece} {blanks spelling text : List Char}
    {refs : List TallyRef} (hplace : p.bracketed = false)
    (hblanks : ∀ c ∈ blanks, Text.isBlank c = true) (hspelling : piece.Spells spelling)
    (hend : piece.isWord = true → Text.EndsWord binDelimiters text)
    (hrest : readBins entity (piece.next p) (Text.tokens binDelimiters text) = .ok refs) :
    readBins entity p (Text.tokens binDelimiters (blanks ++ (spelling ++ text))) =
      .ok (piece.refs entity p ++ refs) := by
  rw [Text.tokens_blanks_append hblanks not_isBlank_of_mem_binDelimiters]
  cases piece with
  | number n =>
    have hplain : ∀ c ∈ spelling, binDelimiters.contains c = false :=
      fun c hc => not_binDelimiter_of_isDigit (hspelling.digits c hc)
    rw [Text.tokens_word_append hspelling.isWord hplain (hend rfl), hspelling.lower_eq,
      readBins_number hplace hspelling]
    exact congrArg _ hrest
  | total =>
    have htoken : Text.tokens binDelimiters (spelling ++ text) =
        "t" :: Text.tokens binDelimiters text := by
      rcases hspelling with rfl | rfl
      · exact Text.tokens_word_append ⟨by simp, List.forall_mem_singleton.mpr rfl⟩
          (List.forall_mem_singleton.mpr rfl) (hend rfl)
      · exact Text.tokens_word_append ⟨by simp, List.forall_mem_singleton.mpr rfl⟩
          (List.forall_mem_singleton.mpr rfl) (hend rfl)
    rw [htoken, readBins_total hplace]
    exact hrest
  | opening =>
    cases hspelling
    rw [List.singleton_append, Text.tokens_cons rfl rfl]
    exact (readBins_opening hplace).trans hrest
  | closing =>
    cases hspelling
    rw [List.singleton_append, Text.tokens_cons rfl rfl]
    exact (readBins_closing hplace).trans hrest
  | deeper =>
    cases hspelling
    rw [List.singleton_append, Text.tokens_cons rfl rfl]
    exact (readBins_deeper hplace).trans hrest
  | index i =>
    cases hspelling
    have htokens : Text.tokens binDelimiters ('[' :: (i.text ++ [']']) ++ text) =
        "[" :: (Text.tokens binDelimiters i.text ++ "]" :: Text.tokens binDelimiters text) := by
      rw [List.cons_append, Text.tokens_cons rfl rfl, List.append_assoc, List.singleton_append,
        Text.tokens_append_cons rfl rfl]
      rfl
    rw [htokens, readBins_index hplace (Text.not_mem_tokens rfl i.unclosed)]
    exact hrest

def pieceRefs (entity : Entity) (p : BinPlace) : List BinPiece → List TallyRef
  | [] => []
  | piece :: rest => piece.refs entity p ++ pieceRefs entity (piece.next p) rest

theorem BinPiece.bracketed_next (piece : BinPiece) : (piece.next p).bracketed = p.bracketed := by
  cases piece <;> rfl

/-- A text is read piece by piece. -/
theorem Written.readBins_eq {pieces : List BinPiece} {text : List Char} (h : Written pieces text)
    (hplace : p.bracketed = false) :
    readBins entity p (Text.tokens binDelimiters text) = .ok (pieceRefs entity p pieces) := by
  induction h generalizing p with
  | nil hblanks =>
    have hnone := Text.tokens_blanks_append hblanks not_isBlank_of_mem_binDelimiters []
    rw [List.append_nil] at hnone
    rw [hnone]
    rfl
  | @cons piece pieces blanks spelling text hblanks hspelling hend hrest ih =>
    exact piece.readBins_append hplace hblanks hspelling hend (ih (piece.bracketed_next.trans hplace))

end Runs

section Levels

variable {entity : Entity} {p : BinPlace} {rest : List BinPiece}

theorem pieceRefs_number (n : BinNumber) : pieceRefs entity p (.number n :: rest) =
    ⟨levelEntity entity p.level, n.value⟩ :: pieceRefs entity p rest :=
  rfl

theorem pieceRefs_opening : pieceRefs entity p (.opening :: rest) =
    pieceRefs entity { p with depth := p.depth + 1 } rest :=
  rfl

theorem pieceRefs_closing : pieceRefs entity p (.closing :: rest) = pieceRefs entity p.close rest :=
  rfl

theorem pieceRefs_deeper : pieceRefs entity p (.deeper :: rest) =
    pieceRefs entity { p with level := p.level + 1 } rest :=
  rfl

theorem pieceRefs_index (index : Option BinIndex) :
    pieceRefs entity p (indexPieces index ++ rest) = pieceRefs entity p rest := by
  cases index <;> rfl

/-- Inside the parentheses of a chain its level does not change, however deep its unions are. -/
theorem LevelBins.pieceRefs_append (bins : LevelBins) (hdepth : 1 ≤ p.depth) :
    pieceRefs entity p (bins.pieces ++ rest) =
      bins.refs (levelEntity entity p.level) ++ pieceRefs entity p rest := by
  induction bins generalizing p rest with
  | number n index =>
    rw [pieces, List.cons_append, pieceRefs_number, pieceRefs_index]
    rfl
  | union members index ih =>
    have hclose : BinPlace.close { p with depth := p.depth + 1 } = p := by
      have hopen : ¬ p.depth + 1 ≤ 1 := by omega
      simp only [BinPlace.close, Nat.add_sub_cancel, if_neg hopen]
    calc pieceRefs entity p ((union members index).pieces ++ rest)
        = pieceRefs entity { p with depth := p.depth + 1 }
            (members.pieces ++ .closing :: (indexPieces index ++ rest)) := by
          rw [pieces, List.cons_append, List.append_assoc, pieceRefs_opening, List.cons_append]
      _ = members.refs (levelEntity entity p.level) ++
            pieceRefs entity { p with depth := p.depth + 1 } (.closing :: (indexPieces index ++ rest)) :=
          ih (Nat.le_add_left 1 _)
      _ = (union members index).refs (levelEntity entity p.level) ++ pieceRefs entity p rest := by
          rw [pieceRefs_closing, hclose, pieceRefs_index]
          rfl
  | append front back ihFront ihBack =>
    rw [pieces, List.append_assoc, ihFront hdepth, ihBack hdepth, ← List.append_assoc]
    simp only [refs, numbers, List.map_append]

/-- Every level after the first refers to cells. -/
theorem pieceRefs_levels (deeper : List LevelBins) (hdepth : 1 ≤ p.depth) :
    pieceRefs entity p (deeper.flatMap (fun level => .deeper :: level.pieces) ++ rest) =
      deeper.flatMap (LevelBins.refs .cell) ++
        pieceRefs entity { p with level := p.level + deeper.length } rest := by
  induction deeper generalizing p with
  | nil => rfl
  | cons level deeper ih =>
    have hlevel : levelEntity entity (p.level + 1) = .cell := if_neg (Nat.succ_ne_zero p.level)
    have hlength : p.level + (level :: deeper).length = p.level + 1 + deeper.length := by
      rw [List.length_cons]
      omega
    rw [List.flatMap_cons, List.append_assoc, List.cons_append, pieceRefs_deeper,
      @LevelBins.pieceRefs_append _ { p with level := p.level + 1 } _ level hdepth,
      @ih { p with level := p.level + 1 } hdepth, hlevel, hlength, List.flatMap_cons,
      List.append_assoc]

/-- A chain ends where it started: outside all parentheses and at the first level. -/
theorem Bin.pieceRefs_append (bin : Bin) :
    pieceRefs entity {} (bin.pieces ++ rest) = bin.refs entity ++ pieceRefs entity {} rest := by
  cases bin with
  | number n index =>
    rw [pieces, List.cons_append, pieceRefs_number, pieceRefs_index]
    rfl
  | total => rfl
  | chain first deeper index =>
    let opened : BinPlace := { depth := 1 }
    let below : BinPlace := { depth := 1, level := deeper.length }
    have hbelow : { opened with level := opened.level + deeper.length } = below := by
      simp [opened, below]
    calc pieceRefs entity {} ((chain first deeper index).pieces ++ rest)
        = pieceRefs entity opened (first.pieces ++
            (deeper.flatMap (fun level => .deeper :: level.pieces) ++
              .closing :: (indexPieces index ++ rest))) := by
          rw [pieces, List.cons_append, List.append_assoc, List.append_assoc, List.cons_append,
            pieceRefs_opening]
      _ = first.refs entity ++ pieceRefs entity opened
            (deeper.flatMap (fun level => .deeper :: level.pieces) ++
              .closing :: (indexPieces index ++ rest)) :=
          first.pieceRefs_append (Nat.le_refl 1)
      _ = first.refs entity ++ (deeper.flatMap (LevelBins.refs .cell) ++
            pieceRefs entity below (.closing :: (indexPieces index ++ rest))) := by
          rw [pieceRefs_levels deeper (Nat.le_refl 1), hbelow]
      _ = first.refs entity ++ (deeper.flatMap (LevelBins.refs .cell) ++
            pieceRefs entity {} (indexPieces index ++ rest)) := rfl
      _ = (chain first deeper index).refs entity ++ pieceRefs entity {} rest := by
          rw [pieceRefs_index, refs, List.append_assoc]

theorem pieceRefs_bins (bins : List Bin) :
    pieceRefs entity {} (bins.flatMap Bin.pieces) = bins.flatMap (Bin.refs entity) := by
  induction bins with
  | nil => rfl
  | cons bin bins ih => rw [List.flatMap_cons, bin.pieceRefs_append, ih, List.flatMap_cons]

end Levels

/-- What is read from a written list of bins are the numbers outside brackets in order, each with what
it refers to, if there is a bin other than the total. -/
theorem readTallyBins_written {entity : Entity} {bins : List Bin} {body : List Char}
    (hbody : Written (bins.flatMap Bin.pieces) body) (hnumber : ∃ bin ∈ bins, bin ≠ .total) :
    readTallyBins entity body = .ok (bins.flatMap (Bin.refs entity)) := by
  have hread : readBins entity {} (Text.tokens binDelimiters body) =
      .ok (bins.flatMap (Bin.refs entity)) := by
    rw [hbody.readBins_eq rfl, pieceRefs_bins]
  have hne : (bins.flatMap (Bin.refs entity)).isEmpty = false := by
    obtain ⟨bin, hbin, htotal⟩ := hnumber
    rw [List.isEmpty_eq_false_iff, Ne, List.flatMap_eq_nil_iff]
    exact fun hnil => bin.refs_ne_nil htotal entity (hnil bin hbin)
  refine bind_eq_ok.mpr ⟨_, hread, ?_⟩
  rw [hne]
  rfl

def BinPiece.spelling : BinPiece → List Char
  | number n => Nat.toDigits 10 n.value
  | total => ['t']
  | opening => ['(']
  | closing => [')']
  | deeper => ['<']
  | index i => '[' :: (i.text ++ [']'])

theorem BinPiece.spells_spelling (piece : BinPiece) : piece.Spells piece.spelling := by
  cases piece with
  | number n => exact numeral_toDigits n.value
  | total => exact .inl rfl
  | _ => exact rfl

/-- Pieces can always be written, for one with a space before each of them. -/
theorem written_spaced (pieces : List BinPiece) :
    Written pieces (pieces.flatMap fun piece => ' ' :: piece.spelling) := by
  induction pieces with
  | nil => exact .nil (by simp)
  | cons piece pieces ih =>
    have hend : Text.EndsWord binDelimiters (pieces.flatMap fun piece => ' ' :: piece.spelling) := by
      cases pieces with
      | nil => exact fun c hc => absurd hc (Option.not_mem_none c)
      | cons next pieces =>
        rintro _ ⟨⟩
        exact .inl rfl
    have hspace : ∀ c ∈ [' '], Text.isBlank c = true := List.forall_mem_singleton.mpr rfl
    exact .cons hspace piece.spells_spelling (fun _ => hend) ih

def chainBins : List Bin :=
  [.number ⟨1, by decide, by decide⟩ (some ⟨['<', '('], by decide⟩),
    .chain (.append (.number ⟨2, by decide, by decide⟩ none)
        (.union (.append (.number ⟨3, by decide, by decide⟩ none)
          (.number ⟨4, by decide, by decide⟩ none)) none))
      [.number ⟨5, by decide, by decide⟩ none] (some ⟨['0', ':', '1'], by decide⟩),
    .total]

theorem readTallyBins_chainBins :
    readTallyBins .surface " 1 [<(] ( 2 ( 3 4 ) < 5 ) [0:1] t".toList =
      .ok [⟨.surface, 1⟩, ⟨.surface, 2⟩, ⟨.surface, 3⟩, ⟨.surface, 4⟩, ⟨.cell, 5⟩] := by
  have hwritten : Written (chainBins.flatMap Bin.pieces)
      " 1 [<(] ( 2 ( 3 4 ) < 5 ) [0:1] t".toList := by
    have htext : (chainBins.flatMap Bin.pieces).flatMap (fun piece => ' ' :: piece.spelling) =
        " 1 [<(] ( 2 ( 3 4 ) < 5 ) [0:1] t".toList := by decide +kernel
    rw [← htext]
    exact written_spaced _
  have hnumber : ∃ bin ∈ chainBins, bin ≠ .total := ⟨_, List.mem_cons_self, Bin.noConfusion⟩
  exact readTallyBins_written hwritten hnumber

end TransportDeck.Card
