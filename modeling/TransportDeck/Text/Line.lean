import TransportDeck.Text.Blank

namespace TransportDeck.Text

/-- A carriage return directly before a newline belongs to the line ending. -/
def dropReturn (line : List Char) : List Char :=
  if line.getLast? = some '\r' then line.dropLast else line

/-- The lines of a text. Each ends at a newline; what follows the last newline is a line too,
unless it is empty. -/
def lines (text : List Char) : List (List Char) :=
  let pieces := text.splitOn '\n'
  let rest := pieces.getLast?.getD []
  pieces.dropLast.map dropReturn ++ if rest.isEmpty then [] else [rest]

/-- Tab stops stand at every eighth column. -/
def tabWidth : Nat := 8

def indentFrom (column : Nat) : List Char → Nat
  | ' ' :: rest => indentFrom (column + 1) rest
  | '\t' :: rest => indentFrom (column + (tabWidth - column % tabWidth)) rest
  | _ => column

def indentWidth (line : List Char) : Nat :=
  indentFrom 0 line

/-- A comment card: its first word is a lone `c` in either case. -/
def isComment (line : List Char) : Bool :=
  match trimStart line with
  | c :: rest => (c == 'c' || c == 'C') && rest.head?.all isBlank
  | [] => false

/-- The quotation mark that is open after reading `c`. A mark closes only by itself. -/
def quoteAfter (quote : Option Char) (c : Char) : Option Char :=
  match quote with
  | none => if c = '"' ∨ c = '\'' then some c else none
  | some q => if c = q then none else some q

/-- Cuts a line at its first dollar sign outside quotations, with `quote` open at the start. -/
def cutComment (quote : Option Char) : List Char → List Char × Option (List Char)
  | [] => ([], none)
  | c :: rest =>
    if quote = none ∧ c = '$' then ([], some rest)
    else
      let (content, comment) := cutComment (quoteAfter quote c) rest
      (c :: content, comment)

def splitComment (line : List Char) : List Char × Option (List Char) :=
  cutComment none line

end TransportDeck.Text
