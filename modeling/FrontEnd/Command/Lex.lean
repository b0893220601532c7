import FrontEnd.Command.Arguments
import FrontEnd.Command.Sink
import FrontEnd.Token.Delivery

/-! The command that prints the tokens of a file, one line for each. -/

namespace FrontEnd

inductive CommandError where
  | load (error : LoadError)
  | lex (error : LexError)
  | output (cause : String)
  deriving DecidableEq

namespace CommandError

def message : CommandError → String
  | .load error => error.message
  | .lex error => error.message
  | .output _ => "failed to write output"

/-- The texts of what caused the failure, nearest first. -/
def causes : CommandError → List String
  | .load error => [error.cause]
  | .lex _ => []
  | .output cause => [cause]

def report (error : CommandError) : String :=
  "error: " ++ error.message ++ "\n"
    ++ String.join (error.causes.map fun cause => "  caused by: " ++ cause ++ "\n")

end CommandError

def Token.line (token : Token) : String :=
  token.location.display ++ " " ++ token.kind.name ++ " " ++ Text.quoteString token.text ++ "\n"

def Receiver.printer : Receiver Sink CommandError where
  receive sink token :=
    let (sink, outcome) := sink.write token.line
    (sink, outcome.mapError .output)
  ofLexError := .lex

structure LexRun (σ : Type) where
  result : Except CommandError Unit
  sink : Sink
  world : σ
  log : Array LogEntry

variable {σ η : Type}

/-- Loads the file, closes it, warns about its encoding issues, and prints its tokens. -/
def lexFile (disk : Disk σ η) (world : σ) (arguments : LexArguments) (sink : Sink) : LexRun σ :=
  let (id, paths) := PathTable.empty.intern arguments.path
  let file : ByteSource η := .disk (FileReader.ofId paths id)
  let loaded := file.load disk world arguments.chunkSize
  let closed := loaded.file.close disk loaded.world
  let log := LogEntry.inside file.loadSpan loaded.events ++ LogEntry.outside closed.events
  match loaded.result with
  | .error error => ⟨.error (.load error), sink, closed.world, log⟩
  | .ok source =>
      let path := paths.displayPath source.path
      let warnings := (source.issues.map (Event.foundEncodingIssue path)).toArray
      let delivery := source.cursor.tokenize Receiver.printer sink
      ⟨delivery.result, delivery.state, closed.world,
        log ++ LogEntry.outside warnings
          ++ LogEntry.inside source.cursor.tokenizeSpan delivery.events⟩

end FrontEnd
