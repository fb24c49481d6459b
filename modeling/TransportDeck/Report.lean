import TransportDeck.Report.Encoding

namespace TransportDeck

inductive ReportFormat
  /-- One line for each diagnostic and a closing count. -/
  | text
  /-- The whole analysis. -/
  | json
  deriving DecidableEq, Repr, Inhabited

def ReportFormat.name : ReportFormat → String
  | text => "text"
  | json => "json"

def counted (n : Nat) (thing : String) : String :=
  if n = 1 then s!"{n} {thing}" else s!"{n} {thing}s"

namespace Analysis

def closingLine (a : Analysis) : String :=
  counted a.errors.length "error" ++ ", " ++ counted a.warnings.length "warning"

def reportLines (a : Analysis) : List String :=
  (a.model.map fun m => m.deck.title).toList ++ a.diagnostics.map Diagnostic.describe ++
    [a.closingLine]

def linesText (lines : List String) : String :=
  "".intercalate (lines.map fun line => line ++ "\n")

def render (a : Analysis) : ReportFormat → String
  | .text => linesText a.reportLines
  | .json => a.toJson.pretty ++ "\n"

end Analysis

end TransportDeck
