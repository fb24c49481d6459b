import TransportDeck.Report
import TransportDeck.Text.Capital

/-!
The command line of a deck checker: its arguments, and what it answers to the content of a file.

Arguments are taken from left to right. The value of an option that stands in the next argument is
examined only when that option is complete, that is at the next option or path, or at the end.
-/

namespace TransportDeck

structure Invocation where
  deck : String
  format : ReportFormat := .text
  maxNesting : Nat := 10
  quiet : Bool := false
  verbose : Nat := 0
  deriving DecidableEq, Repr

inductive UsageFault
  | unknownArgument
  /-- A value is missing, empty or not among those possible. -/
  | invalidValue
  /-- A number is malformed or too large. -/
  | malformedNumber
  /-- An option is given twice. -/
  | repeatedOption
  /-- A flag is given a value. -/
  | unneededValue
  | missingDeck
  | helpRequested
  | versionRequested
  deriving DecidableEq, Repr

namespace CommandLine

inductive Slot
  | deck
  | format
  | maxNesting
  deriving DecidableEq, Repr

inductive Flag
  | quiet
  | verbose
  | help
  | version
  deriving DecidableEq, Repr

inductive Name
  | option (slot : Slot)
  | flag (flag : Flag)
  deriving DecidableEq, Repr

def ofLetter? : Char → Option Name
  | 'f' => some (.option .format)
  | 'n' => some (.option .maxNesting)
  | 'q' => some (.flag .quiet)
  | 'v' => some (.flag .verbose)
  | 'h' => some (.flag .help)
  | 'V' => some (.flag .version)
  | _ => none

def ofWord? (word : String) : Option Name :=
  match word with
  | "format" => some (.option .format)
  | "max-nesting" => some (.option .maxNesting)
  | "quiet" => some (.flag .quiet)
  | "verbose" => some (.flag .verbose)
  | "help" => some (.flag .help)
  | "version" => some (.flag .version)
  | _ => none

structure Pending where
  slot : Slot
  value : Option String
  deriving DecidableEq, Repr

structure State where
  deck : Option String := none
  format : Option ReportFormat := none
  maxNesting : Option Nat := none
  quiet : Bool := false
  verbose : Nat := 0
  pending : Option Pending := none
  /-- Whether a path has been seen, examined or not. -/
  pathSeen : Bool := false
  /-- Whether a double dash has ended the options. -/
  optionsEnded : Bool := false
  deriving DecidableEq, Repr

def maxLimit : Nat := 18446744073709551615

def readLimit? (value : String) : Option Nat :=
  let digits := match value.toList with
    | '+' :: rest => rest
    | cs => cs
  match Number.scanNat? maxLimit digits with
  | some (n, []) => some n
  | _ => none

def readFormat? (value : String) : Option ReportFormat :=
  [ReportFormat.text, .json].find? fun f => f.name == value

namespace State

def store (s : State) (slot : Slot) (value : String) : Except UsageFault State :=
  match slot with
  | .deck => if value = "" then .error .invalidValue else .ok { s with deck := some value }
  | .format =>
    if s.format.isSome then .error .repeatedOption
    else match readFormat? value with
      | some f => .ok { s with format := some f }
      | none => .error .invalidValue
  | .maxNesting =>
    if s.maxNesting.isSome then .error .repeatedOption
    else match readLimit? value with
      | some n => .ok { s with maxNesting := some n }
      | none => .error .malformedNumber

def settle (s : State) : Except UsageFault State :=
  match s.pending with
  | none => .ok s
  | some ⟨_, none⟩ => .error .invalidValue
  | some ⟨slot, some value⟩ => { s with pending := none }.store slot value

def maxVerbosity : Nat := 255

def raise (s : State) (flag : Flag) : Except UsageFault State := do
  let s ← s.settle
  match flag with
  | .quiet => if s.quiet then throw .repeatedOption else return { s with quiet := true }
  | .verbose => return { s with verbose := min maxVerbosity (s.verbose + 1) }
  | .help => throw .helpRequested
  | .version => throw .versionRequested

def takeOption (s : State) (slot : Slot) (attached : Option String) : Except UsageFault State := do
  let s ← s.settle
  match attached with
  | some value => s.store slot value
  | none => return { s with pending := some ⟨slot, none⟩ }

def takeValue (s : State) (arg : String) : Except UsageFault State :=
  match s.optionsEnded, s.pending with
  | false, some ⟨slot, none⟩ => .ok { s with pending := some ⟨slot, some arg⟩ }
  | _, _ =>
    if s.pathSeen then .error .unknownArgument
    else do
      let s ← s.settle
      return { s with pending := some ⟨.deck, some arg⟩, pathSeen := true }

def takeLong (s : State) (word : String) (attached : Option String) : Except UsageFault State :=
  match ofWord? word with
  | none => .error .unknownArgument
  | some (.option slot) => s.takeOption slot attached
  | some (.flag flag) => if attached.isSome then .error .unneededValue else s.raise flag

def attachedValue? : List Char → Option String
  | [] => none
  | '=' :: rest => some (String.ofList rest)
  | rest => some (String.ofList rest)

def takeShort (s : State) : List Char → Except UsageFault State
  | [] => .ok s
  | c :: rest =>
    match ofLetter? c with
    | none => .error .unknownArgument
    | some (.option slot) => s.takeOption slot (attachedValue? rest)
    | some (.flag flag) => do
      let s ← s.raise flag
      s.takeShort rest

def take (s : State) (arg : String) : Except UsageFault State :=
  if s.optionsEnded then s.takeValue arg
  else
    match arg.toList with
    | ['-', '-'] => .ok { s with optionsEnded := true }
    | '-' :: '-' :: long =>
      let (word, attached) := Text.cut '=' long
      s.takeLong (String.ofList word) (attached.map String.ofList)
    | '-' :: c :: short => s.takeShort (c :: short)
    | _ => s.takeValue arg

def finish (s : State) : Except UsageFault Invocation := do
  let s ← s.settle
  match s.deck with
  | none => throw .missingDeck
  | some deck =>
    return {
      deck
      format := s.format.getD .text
      maxNesting := s.maxNesting.getD 10
      quiet := s.quiet
      verbose := s.verbose }

end State

end CommandLine

structure Response where
  report : String
  log : List String
  exitCode : Nat
  deriving DecidableEq, Repr

namespace Invocation

def ofArguments (args : List String) : Except UsageFault Invocation := do
  let s ← args.foldlM CommandLine.State.take {}
  s.finish

def settings (i : Invocation) : Settings where
  maxNesting := i.maxNesting
  quiet := i.quiet

def logOf (i : Invocation) (a : Analysis) : List String :=
  if i.quiet then []
  else
    let fatal := (a.diagnostics.find? fun d => d.severity = .fatal).toList
    a.notices.map (fun notice => "WARN " ++ notice) ++
      fatal.map fun d => "ERROR " ++ Text.capitalise d.message

def respond (i : Invocation) (content : Except FileFault ByteArray) : Response :=
  let a := Analysis.ofFile i.settings content
  { report := a.render i.format
    log := i.logOf a
    exitCode := a.processCode }

end Invocation

end TransportDeck
