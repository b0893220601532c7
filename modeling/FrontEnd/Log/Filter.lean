import FrontEnd.Log.Event

/-! Log filters and log lines. A filter lists directives: a level for everything, or a level
for the targets that begin with a name. The longest name that fits a target decides, and of
two directives for one name the later; without any directive only errors pass. -/

namespace FrontEnd

/-- Lets through what is no more detailed than `level`, or nothing. -/
structure Directive where
  target : String
  level : Option Level

structure LogFilter where
  directives : List Directive

namespace LogFilter

/-- The levels by name, in any case, and by number; zero is off. -/
def parseLevel? (text : String) : Option (Option Level) :=
  match (text.map Char.toLower) with
  | "off" | "0" => some none
  | "error" | "1" => some (some .error)
  | "warn" | "2" => some (some .warn)
  | "info" | "3" => some (some .info)
  | "debug" | "4" => some (some .debug)
  | "trace" | "5" => some (some .trace)
  | _ => none

/-- A directive is a level, or a target with a level. All passes for a target whose level is
left out. -/
def parseDirective? (text : String) : Option Directive :=
  match text.splitOn "=" with
  | [name] =>
      match parseLevel? name with
      | some level => some ⟨"", level⟩
      | none => some ⟨name, some .trace⟩
  | [target, ""] => some ⟨target, some .trace⟩
  | [target, name] => (parseLevel? name).map fun level => ⟨target, level⟩
  | _ => none

def parse (text : String) : LogFilter :=
  let parts := (text.splitOn ",").filter (· ≠ "")
  match parts.filterMap parseDirective? with
  | [] => ⟨[⟨"", some .error⟩]⟩
  | directives => ⟨directives⟩

def ofLevel (level : Option Level) : LogFilter := ⟨[⟨"", level⟩]⟩

def deciding? (filter : LogFilter) (target : String) : Option Directive :=
  (filter.directives.filter fun directive => directive.target.isPrefixOf target).foldl
    (fun chosen directive =>
      match chosen with
      | none => some directive
      | some earlier =>
          if earlier.target.utf8ByteSize ≤ directive.target.utf8ByteSize then some directive
          else chosen)
    none

def enables (filter : LogFilter) (level : Level) (target : String) : Bool :=
  match (filter.deciding? target).bind (·.level) with
  | some most => level.detail ≤ most.detail
  | none => false

end LogFilter

namespace LogEntry

def text (filter : LogFilter) (entry : LogEntry) : String :=
  let within :=
    match entry.span with
    | some span => if filter.enables span.level span.target then span.display ++ ": " else ""
    | none => ""
  entry.event.level.aligned ++ " " ++ within ++ entry.event.target ++ ": " ++ entry.event.message
    ++ String.join (entry.event.fields.map fun (key, value) => " " ++ key ++ "=" ++ value)

def line? (filter : LogFilter) (entry : LogEntry) : Option String :=
  if filter.enables entry.event.level entry.event.target then some (entry.text filter) else none

end LogEntry

end FrontEnd
