import FrontEnd.Command.Line
import FrontEnd.Storage.FileSystem

/-! The program. It takes a picture of the file that the arguments name, runs the command on it,
and prints what the command leaves. -/

namespace FrontEnd

/-- An error number, which may come with its sign turned. -/
def errorNumber (code : UInt32) : Nat := min code.toNat (0 - code).toNat

def OsError.ofIOError (error : IO.Error) : OsError :=
  match error with
  | .noFileOrDirectory _ code description
  | .invalidArgument _ code description
  | .inappropriateType _ code description
  | .permissionDenied _ code description => ofCode (errorNumber code) description
  | _ => .other (toString error)

def nodeAt (path : String) : IO Node := do
  try
    return .file (← IO.FS.readBinFile path)
  catch error =>
    match OsError.ofIOError error with
    | .isDirectory => return .directory FileSystem.rootDirectory []
    | cause => return .refused cause

/-- A file system with nothing but what stands at one path. -/
def picture (path : Path) : IO FileSystem := do
  match ← nodeAt path.display with
  | .directory .. => return FileSystem.empty.makeDirectory path
  | .refused .notFound => return FileSystem.empty
  | node => return FileSystem.empty.create path node

def openedPath? (command : Command) : Option Path :=
  match command with
  | .lex arguments =>
      match LexArguments.parse arguments with
      | .ok parsed =>
          let (id, paths) := PathTable.empty.intern parsed.path
          some (paths.displayPath id)
      | .error _ => none
  | _ => none

end FrontEnd

open FrontEnd in
def main (arguments : List String) : IO UInt32 := do
  let settings : LogSettings := ⟨← IO.getEnv "RUST_LOG", ← IO.getEnv "HK_LOG"⟩
  let system ←
    match openedPath? (Command.parse arguments) with
    | some path => picture path
    | none => pure FileSystem.empty
  let execution := Execution.run FileSystem.disk system settings arguments
  IO.print execution.output
  IO.eprint execution.errors
  return execution.exitCode.toUInt32
