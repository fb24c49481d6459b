import TransportDeck.CommandLine

namespace TransportDeck

def usage : String :=
  "Usage: deckcheck [--format text|json] [--max-nesting N] [--quiet] [--verbose] DECK"

def UsageFault.describe : UsageFault → String
  | unknownArgument => "unknown argument"
  | invalidValue => "invalid or missing value"
  | malformedNumber => "malformed number"
  | repeatedOption => "option given twice"
  | unneededValue => "flag takes no value"
  | missingDeck => "no deck given"
  | helpRequested => usage
  | versionRequested => "deckcheck 0.1.0"

def readContent (path : String) : IO (Except FileFault ByteArray) := do
  try
    return .ok (← IO.FS.readBinFile path)
  catch
    | .noFileOrDirectory .. => return .error .missing
    | .inappropriateType .. => return .error .isDirectory
    | e => return .error (.other (toString e))

def run (args : List String) : IO UInt32 := do
  match Invocation.ofArguments args with
  | .error .helpRequested => IO.println usage; return 0
  | .error .versionRequested => IO.println UsageFault.versionRequested.describe; return 0
  | .error fault => IO.eprintln s!"error: {fault.describe}\n{usage}"; return 2
  | .ok invocation =>
    let response := invocation.respond (← readContent invocation.deck)
    for line in response.log do IO.eprintln line
    IO.print response.report
    return response.exitCode.toUInt32

end TransportDeck

def main (args : List String) : IO UInt32 :=
  TransportDeck.run args
