import TransportDeck.Blocks
import TransportDeck.Card.Data
import TransportDeck.Card.Surface
import TransportDeck.Like

/-!
Reading of a deck from its cards. What is wrong with a card is reported and the rest goes on; of
records with one number the first is kept.
-/

namespace TransportDeck

abbrev RecordKey := RecordKind × Nat

/-- How the cards of a block become records. -/
structure BlockRules (α : Type) where
  read : List Char → CardResult α
  key? : α → Option RecordKey
  place : Span → α → α
  /-- Findings about a card, given the cards read before it. -/
  remarks : List α → α → List Finding
  /-- Findings about a card that is kept. -/
  audit : α → List Finding

namespace BlockRules

variable {α : Type}

def results (rules : BlockRules α) (cards : List LogicalCard) : List (Span × CardResult α) :=
  cards.map fun card => (card.span, rules.read card.text.toList)

def earlier? (rules : BlockRules α) (seen : List (RecordKey × Span)) (a : α) :
    Option (RecordKey × Span) :=
  (rules.key? a).bind fun key => (seen.lookup key).map fun first => (key, first)

/-- The records to keep and what is reported, after the cards `before` with the definitions
`seen`. -/
def keepFirst (rules : BlockRules α) (before : List α) (seen : List (RecordKey × Span)) :
    List (Span × CardResult α) → List α × List Diagnostic
  | [] => ([], [])
  | (span, .error issue) :: rest =>
    let (kept, reports) := keepFirst rules before seen rest
    (kept, issue.report span :: reports)
  | (span, .ok (a, issues)) :: rest =>
    let found := issues.map (·.report span) ++
      (rules.remarks before a).map (·.report (some span))
    match rules.earlier? seen a with
    | some (key, first) =>
      let (kept, reports) := keepFirst rules (a :: before) seen rest
      (kept, found ++ (Finding.duplicate key.1 key.2 first).report (some span) :: reports)
    | none =>
      let defined := (rules.key? a).toList.map fun key => (key, span)
      let audits := (rules.audit a).map (·.report (some span))
      let (kept, reports) := keepFirst rules (a :: before) (defined ++ seen) rest
      (rules.place span a :: kept, found ++ audits ++ reports)

end BlockRules

def Cell.rules : BlockRules Cell where
  read := Card.readCell
  key? c := some (.cell, c.number)
  place span c := { c with span }
  remarks _ _ := []
  audit _ := []

def Surface.rules : BlockRules Surface where
  read := Card.readSurface
  key? s := some (.surface, s.number)
  place span s := { s with span }
  remarks _ _ := []
  audit _ := []

def DataCard.key? (card : DataCard) : Option RecordKey :=
  match card.payload with
  | .material m => some (.material, m.number)
  | .transform t => some (.transform, t.number)
  | .tally t => some (.tally, t.number)
  | _ => none

def DataCard.remarks (before : List DataCard) (card : DataCard) : List Finding :=
  if Card.isKnownMnemonic card.mnemonic || before.any (·.mnemonic == card.mnemonic) then []
  else [.unknownCard card.mnemonic]

def DataCard.audit (card : DataCard) : List Finding :=
  match card.material? with
  | none => []
  | some m =>
    if m.fractionKind?.isNone && !m.components.isEmpty then
      let atoms := m.components.countP fun c => 0 ≤ c.fraction
      [.mixedFractions m.number atoms (m.components.length - atoms)]
    else []

def DataCard.rules : BlockRules DataCard where
  read := Card.readData
  key? := DataCard.key?
  place := DataCard.place
  remarks := DataCard.remarks
  audit := DataCard.audit

structure Reading where
  deck : Deck
  reports : List Diagnostic
  /-- Cell keywords that are not recognised, in the order written. -/
  unrecognised : List String

namespace Reading

def unrecognisedIn (results : List (Span × CardResult Cell)) : List String :=
  results.flatMap fun
    | (_, .ok (c, _)) => Card.unrecognised c
    | (_, .error _) => []

def ofBlocks (blocks : Blocks) : Reading :=
  let cellResults := Cell.rules.results blocks.cells
  let (written, cellReports) := Cell.rules.keepFirst [] [] cellResults
  let (cells, likeReports) := expandLike written
  let (surfaces, surfaceReports) :=
    Surface.rules.keepFirst [] [] (Surface.rules.results blocks.surfaces)
  let (data, dataReports) := DataCard.rules.keepFirst [] [] (DataCard.rules.results blocks.data)
  { deck := { title := blocks.title, messages := blocks.messages, cells, surfaces, data }
    reports := cellReports ++ likeReports ++ surfaceReports ++ dataReports
    unrecognised := unrecognisedIn cellResults }

def notices (r : Reading) : List String :=
  r.unrecognised.map fun keyword => s!"Unrecognised cell keyword '{keyword}'"

end Reading

end TransportDeck
