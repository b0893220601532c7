import FrontEnd.Command.Lex
import FrontEnd.Log.Filter

/-! The command line: the first argument names the command. Errors go to a text of their own,
together with the log lines that the settings ask for. -/

namespace FrontEnd

/-- Where a log filter may be set. The second place counts only if the first is not set. -/
structure LogSettings where
  first : Option String
  second : Option String

def LogSettings.filter? (settings : LogSettings) : Option LogFilter :=
  match settings.first with
  | some text => some (LogFilter.parse text)
  | none => settings.second.map LogFilter.parse

inductive Command where
  | lex (arguments : List String)
  | help
  | version
  | unknown (name : String)
  deriving DecidableEq

namespace Command

def parse : List String → Command
  | [] => .help
  | name :: rest =>
      if name = "lex" then .lex rest
      else if name = "help" || name = "--help" || name = "-h" then .help
      else if name = "version" || name = "--version" || name = "-v" then .version
      else .unknown name

end Command

structure Execution where
  exitCode : Nat
  output : String
  errors : String

namespace Execution

def versionText : String := "Hiko Compiler 0.1.0\n"

def usageText : String :=
  "Hiko Compiler\n\nUsage: hkc <command> [options]\n\nCommands:\n"
    ++ "  lex <file.hk>        Print the token stream of a file\n"
    ++ "  help                 Show this message\n"
    ++ "  version              Show version information\n\nOptions for lex:\n"
    ++ "  --chunk-size=<bytes> Bytes requested per read (default: 65536)\n\n"
    ++ "Set RUST_LOG or HK_LOG (e.g. HK_LOG=hk_io=debug) to enable tracing.\n"

def lexUsageText : String := "Usage: hkc lex <file.hk> [--chunk-size=<bytes>]\n"

variable {σ η : Type}

def ofLex (disk : Disk σ η) (world : σ) (settings : LogSettings) (arguments : LexArguments) : Execution :=
  let run := lexFile disk world arguments Sink.unlimited
  let logged :=
    match settings.filter? with
    | some filter => String.join ((run.log.toList.filterMap (·.line? filter)).map (· ++ "\n"))
    | none => ""
  match run.result with
  | .ok () => ⟨0, run.sink.written, logged⟩
  | .error error => ⟨1, run.sink.written, logged ++ error.report⟩

def run (disk : Disk σ η) (world : σ) (settings : LogSettings) (arguments : List String) : Execution :=
  match Command.parse arguments with
  | .lex rest =>
      match LexArguments.parse rest with
      | .ok parsed => ofLex disk world settings parsed
      | .error error => ⟨1, "", "error: " ++ error.message ++ "\n" ++ lexUsageText⟩
  | .help => ⟨0, usageText, ""⟩
  | .version => ⟨0, versionText, ""⟩
  | .unknown name => ⟨1, usageText, "Unknown command: " ++ name ++ "\n\n"⟩

end Execution

end FrontEnd
