import TransportDeck.Proofs.Checked.Steps
import TransportDeck.Proofs.LogicalCard.LetterCase
import TransportDeck.Proofs.Text.InlineComments
import TransportDeck.Proofs.Text.Trimming

namespace TransportDeck.Checked

def commentStart (quote : Option Char) (byte : Nat) : List Char → Option Nat
  | [] => none
  | c :: rest =>
    if quote = none ∧ c = '$' then some byte
    else commentStart (Text.quoteAfter quote c) (byte + c.utf8Size) rest

def splitComment (line : List Char) : Option (List Char × Option (List Char)) :=
  match commentStart none 0 line with
  | none => some (line, none)
  | some byte => do
    let (content, _) ← cutAt? line byte
    let (_, comment) ← cutAt? line (← add? byte 1)
    return (content, some comment)

def indentFrom (column : Nat) : List Char → Option Nat
  | ' ' :: rest => do indentFrom (← add? column 1) rest
  | '\t' :: rest => do
    indentFrom (← add? column (← sub? Text.tabWidth (column % Text.tabWidth))) rest
  | _ => some column

def cardLine (line : PhysicalLine) : Option (Option CardLine) :=
  if Text.isComment line.text then some none
  else do
    let (content, comment) ← splitComment line.text
    let comment := comment.map fun c => String.ofList (Text.trim c)
    if Text.isBlankText content then return comment.map (.remark line.number)
    else
      let (body, continued) := splitAmpersand (Text.trimEnd content)
      let indent ← indentFrom 0 line.text
      return some <|
        .content ⟨line.number, Text.trim body, continued, continuationIndent ≤ indent, comment⟩

def joinLines (lines : List PhysicalLine) : Option (List LogicalCard) := do
  return LogicalCard.ofCardLines ((← lines.mapM cardLine).filterMap id)

structure LineFits (line : List Char) : Prop where
  bytes_lt : Text.bytes line < lengthLimit
  indent_lt : Text.indentWidth line < lengthLimit

theorem commentStart_eq (quote : Option Char) (byte : Nat) (cs : List Char) :
    commentStart quote byte cs =
      (Text.cutComment quote cs).2.map fun _ => byte + Text.bytes (Text.cutComment quote cs).1 := by
  fun_induction commentStart quote byte cs with
  | case1 quote byte => rfl
  | case2 quote byte c rest hcut => rw [Text.cutComment, if_pos hcut]; rfl
  | case3 quote byte c rest hkeep ih =>
    rw [Text.cutComment, if_neg hkeep, ih]
    simp only [Text.bytes_cons, Nat.add_assoc]

theorem splitComment_eq {line : List Char} (h : Text.bytes line < lengthLimit) :
    splitComment line = some (Text.splitComment line) := by
  unfold splitComment
  rw [commentStart_eq, Text.splitComment]
  cases hcomment : (Text.cutComment none line).2 with
  | none =>
    have huncut := Text.splitComment_of_uncut hcomment
    rw [Text.splitComment] at huncut
    rw [huncut]
    rfl
  | some comment =>
    generalize hcontent : (Text.cutComment none line).1 = content
    have hpair : Text.cutComment none line = (content, some comment) := Prod.ext hcontent hcomment
    obtain ⟨happend, -, -⟩ := Text.cutComment_eq_some hpair
    have hmark : Text.bytes (content ++ ['$']) = Text.bytes content + 1 := Text.bytes_append content ['$']
    have hbefore : cutAt? line (Text.bytes content) = some (content, '$' :: comment) := by
      rw [← happend]
      exact cutAt?_append content ('$' :: comment)
    have hafter : cutAt? line (Text.bytes content + 1) = some (content ++ ['$'], comment) := by
      rw [← hmark, ← happend, List.append_cons]
      exact cutAt?_append (content ++ ['$']) comment
    have hle : Text.bytes content ≤ Text.bytes line := by
      rw [← happend]
      exact Text.bytes_sublist (List.sublist_append_left content _)
    have hnext : add? (Text.bytes content) 1 = some (Text.bytes content + 1) :=
      add?_of_lt (by omega) (by decide)
    simp [hbefore, hnext, hafter, hpair]

theorem indentFrom_eq {column : Nat} {cs : List Char} (h : Text.indentFrom column cs < lengthLimit) :
    indentFrom column cs = some (Text.indentFrom column cs) := by
  fun_induction Text.indentFrom column cs with
  | case1 column rest ih =>
    have hle := Text.le_indentFrom (column + 1) rest
    have hadd : add? column 1 = some (column + 1) :=
      add?_of_lt (by omega) (by decide)
    rw [indentFrom, hadd]
    exact ih h
  | case2 column rest ih =>
    have hle := Text.le_indentFrom (column + (Text.tabWidth - column % Text.tabWidth)) rest
    have hmod : column % Text.tabWidth < Text.tabWidth := Nat.mod_lt column (by decide)
    have hadd : add? column (Text.tabWidth - column % Text.tabWidth) =
        some (column + (Text.tabWidth - column % Text.tabWidth)) :=
      add?_of_lt (by omega) (by omega)
    rw [indentFrom, sub?_eq (Nat.le_of_lt hmod), Option.bind_eq_bind, Option.bind_some, hadd]
    exact ih h
  | case3 column cs hspace htab => rw [indentFrom.eq_3 cs column hspace htab]

theorem cardLine_eq {line : PhysicalLine} (h : LineFits line.text) :
    cardLine line = some line.cardLine? := by
  have hindent : indentFrom 0 line.text = some (Text.indentWidth line.text) :=
    indentFrom_eq h.indent_lt
  unfold cardLine PhysicalLine.cardLine?
  split
  · rfl
  · rw [splitComment_eq h.bytes_lt]
    dsimp only [Option.bind_eq_bind, Option.bind_some]
    split
    · rfl
    · rw [hindent]
      rfl

theorem joinLines_eq {lines : List PhysicalLine} (h : ∀ line ∈ lines, LineFits line.text) :
    joinLines lines = some (LogicalCard.ofLines lines) := by
  have hcards : lines.mapM cardLine = some (lines.map PhysicalLine.cardLine?) :=
    mapM_eq_some fun line hline => cardLine_eq (h line hline)
  rw [joinLines, hcards]
  simp [LogicalCard.ofLines, List.filterMap_map]

end TransportDeck.Checked
