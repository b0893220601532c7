import FrontEnd.Storage.Disk

/-! Random access to one file. A reader opens its file when it is first needed, keeps it open,
and closes it after a failed seek or read. It never tries twice: only the next call opens the
file again. -/

namespace FrontEnd

inductive FileOperation where
  | opening
  | seeking
  | reading
  deriving DecidableEq

structure FileError where
  operation : FileOperation
  path : Path
  cause : OsError
  deriving DecidableEq

def FileError.message (error : FileError) : String :=
  let failure :=
    match error.operation with
    | .opening => "failed to open file stream: "
    | .seeking => "failed to seek in file stream: "
    | .reading => "failed to read from file stream: "
  failure ++ error.path.display

/-- What an operation on a file yields: its result, the file and the world after it, and what
was reported. -/
structure Outcome (σ φ α : Type) where
  result : α
  file : φ
  world : σ
  events : Array Event

structure FileReader (η : Type) where
  paths : PathTable
  id : PathId
  handle : Option η

namespace FileReader

variable {σ η : Type}

def ofId (paths : PathTable) (id : PathId) : FileReader η := ⟨paths, id, none⟩

def path (reader : FileReader η) : Path := reader.paths.displayPath reader.id

def isOpen (reader : FileReader η) : Bool := reader.handle.isSome

def detailed (reader : FileReader η) : String :=
  "FileReader \x7b path: " ++ reader.path.quoted ++ ", open: " ++ toString reader.isOpen ++ " \x7d"

def fail (reader : FileReader η) (operation : FileOperation) (cause : OsError) : FileError :=
  ⟨operation, reader.path, cause⟩

def acquire (disk : Disk σ η) (world : σ) (reader : FileReader η) :
    Outcome σ (FileReader η) (Except FileError η) :=
  match reader.handle with
  | some handle => ⟨.ok handle, reader, world, #[]⟩
  | none =>
      match disk.openFile world reader.path with
      | (.ok handle, after) =>
          ⟨.ok handle, { reader with handle := some handle }, after, #[.openedFile reader.path]⟩
      | (.error cause, after) => ⟨.error (reader.fail .opening cause), reader, after, #[]⟩

def openFile (disk : Disk σ η) (world : σ) (reader : FileReader η) :
    Outcome σ (FileReader η) (Except FileError Unit) :=
  let acquired := reader.acquire disk world
  { acquired with result := acquired.result.map fun _ => () }

def close (disk : Disk σ η) (world : σ) (reader : FileReader η) : Outcome σ (FileReader η) Unit :=
  match reader.handle with
  | some handle =>
      ⟨(), { reader with handle := none }, disk.close world handle, #[.closedFile reader.id]⟩
  | none => ⟨(), reader, world, #[]⟩

def abandon {α : Type} (disk : Disk σ η) (world : σ) (reader : FileReader η) (events : Array Event)
    (operation : FileOperation) (cause : OsError) : Outcome σ (FileReader η) (Except FileError α) :=
  let closed := reader.close disk world
  ⟨.error (reader.fail operation cause), closed.file, closed.world, events ++ closed.events⟩

/-- Reads up to `count` bytes from a position on: fewer only at the end of the file. To read
none leaves the file alone. -/
def read (disk : Disk σ η) (world : σ) (reader : FileReader η) (position count : Nat) :
    Outcome σ (FileReader η) (Except FileError ByteArray) :=
  if count = 0 then ⟨.ok ByteArray.empty, reader, world, #[]⟩
  else
    match reader.acquire disk world with
    | ⟨.error error, reader, world, events⟩ => ⟨.error error, reader, world, events⟩
    | ⟨.ok handle, reader, world, events⟩ =>
        match disk.seekTo world handle position with
        | (.error cause, world, sought) =>
            reader.abandon disk world (events ++ sought) .seeking cause
        | (.ok (), world, sought) =>
            match disk.fill world handle count ByteArray.empty with
            | (.error cause, world) => reader.abandon disk world (events ++ sought) .reading cause
            | (.ok bytes, world) =>
                ⟨.ok bytes, reader, world,
                  (events ++ sought).push (.readFile reader.id position count bytes.size)⟩

end FileReader

end FrontEnd
