import FrontEnd.LexError
import FrontEnd.Source.Text
import FrontEnd.Storage.OsError
import FrontEnd.Token

/-! What the front end reports about its own work. Every event has a level, the target that
a filter selects it by, a message, and named fields. Loading a source and tokenizing one
are spans, which show around the events they contain. -/

namespace FrontEnd

inductive Level where
  | error
  | warn
  | info
  | debug
  | trace
  deriving DecidableEq

namespace Level

def detail : Level → Nat
  | .error => 1
  | .warn => 2
  | .info => 3
  | .debug => 4
  | .trace => 5

def all : List Level := [.error, .warn, .info, .debug, .trace]

def aligned : Level → String
  | .error => "ERROR"
  | .warn => " WARN"
  | .info => " INFO"
  | .debug => "DEBUG"
  | .trace => "TRACE"

end Level

inductive Event where
  | openedFile (path : Path)
  | closedFile (path : PathId)
  | seekOutOfRange (position : Nat) (cause : OsError)
  | readFile (path : PathId) (position requested count : Nat)
  | loadedSource (bytes : Nat)
  | scannedToken (token : Token)
  | addedTerminator (location : Location)
  | stoppedOnError (error : LexError)
  | finishedTokenizing (count : Nat)
  | foundEncodingIssue (path : Path) (issue : EncodingIssue)

namespace Event

def level : Event → Level
  | .openedFile _ | .closedFile _ | .loadedSource _ | .addedTerminator _ | .stoppedOnError _
  | .finishedTokenizing _ => .debug
  | .seekOutOfRange .. | .readFile .. | .scannedToken _ => .trace
  | .foundEncodingIssue .. => .warn

def target : Event → String
  | .openedFile _ | .closedFile _ | .seekOutOfRange .. | .readFile .. => "hk_io::file_reader"
  | .loadedSource _ => "hk_io::load"
  | .scannedToken _ | .addedTerminator _ | .stoppedOnError _ => "hk_lexer::tokenizer"
  | .finishedTokenizing _ => "hk_lexer"
  | .foundEncodingIssue .. => "hkc::commands::lex"

def message : Event → String
  | .openedFile _ => "opened file"
  | .closedFile _ => "closed file"
  | .seekOutOfRange .. => "seek out of range, moving to end of stream"
  | .readFile .. => "read"
  | .loadedSource _ => "loaded source"
  | .scannedToken _ => "token"
  | .addedTerminator _ => "synthesizing statement terminator at end of input"
  | .stoppedOnError _ => "tokenizer stopped on lexical error"
  | .finishedTokenizing _ => "tokenize finished"
  | .foundEncodingIssue .. => "encoding issue in source"

def fields : Event → List (String × String)
  | .openedFile path => [("path", path.display)]
  | .closedFile path => [("path", path.detailed)]
  | .seekOutOfRange position cause => [("position", toString position), ("error", cause.message)]
  | .readFile path position requested count =>
      [("path", path.detailed), ("position", toString position),
        ("requested", toString requested), ("count", toString count)]
  | .loadedSource bytes => [("bytes", toString bytes)]
  | .scannedToken token =>
      [("kind", token.kind.name), ("text", Text.quoteString token.text),
        ("location", token.location.display)]
  | .addedTerminator location => [("location", location.display)]
  | .stoppedOnError error => [("err", error.message)]
  | .finishedTokenizing count => [("count", toString count)]
  | .foundEncodingIssue path issue =>
      [("path", path.display), ("kind", issue.kind.name), ("offset", toString issue.position),
        ("len", toString issue.length)]

end Event

/-- A stretch of work that events can lie in. -/
inductive Span where
  | loadSource (path : PathId)
  | tokenize (path : PathId) (length : Nat)
  deriving DecidableEq

namespace Span

def level (_ : Span) : Level := .debug

def target : Span → String
  | .loadSource _ => "hk_io::load"
  | .tokenize .. => "hk_lexer"

def display : Span → String
  | .loadSource path => "load_source\x7bpath=" ++ path.detailed ++ "\x7d"
  | .tokenize path length =>
      "tokenize\x7bpath=" ++ path.detailed ++ " len=" ++ toString length ++ "\x7d"

end Span

structure LogEntry where
  span : Option Span
  event : Event

namespace LogEntry

def outside (events : Array Event) : Array LogEntry := events.map fun event => ⟨none, event⟩

def inside (span : Span) (events : Array Event) : Array LogEntry :=
  events.map fun event => ⟨some span, event⟩

end LogEntry

end FrontEnd
