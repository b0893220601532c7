import FrontEnd.Storage.FileReader

/-! The places that source bytes come from: memory, and files on a disk. Both are read in the
same way; memory has no handle, so it is never opened or closed. -/

namespace FrontEnd

structure MemoryFile where
  id : PathId
  bytes : ByteArray

namespace MemoryFile

def size (file : MemoryFile) : Nat := file.bytes.size

def isEmpty (file : MemoryFile) : Bool := file.size == 0

def read (file : MemoryFile) (position count : Nat) : ByteArray :=
  if position ≤ file.size then
    file.bytes.extract position (position + min count (file.size - position))
  else ByteArray.empty

def detailed (file : MemoryFile) : String :=
  "MemoryFile \x7b path: " ++ file.id.detailed ++ ", bytes: ["
    ++ ", ".intercalate (file.bytes.toList.map toString) ++ "] \x7d"

end MemoryFile

inductive ByteSource (η : Type) where
  | memory (file : MemoryFile)
  | disk (reader : FileReader η)

namespace ByteSource

variable {σ η : Type}

def id : ByteSource η → PathId
  | .memory file => file.id
  | .disk reader => reader.id

/-- The path that a diagnostic names; all of memory goes by one name. -/
def displayPath : ByteSource η → Path
  | .memory _ => Path.memory
  | .disk reader => reader.path

def detailed : ByteSource η → String
  | .memory file => "Memory(" ++ file.detailed ++ ")"
  | .disk reader => "Disk(" ++ reader.detailed ++ ")"

def ofReader {α : Type} (outcome : Outcome σ (FileReader η) α) : Outcome σ (ByteSource η) α :=
  ⟨outcome.result, .disk outcome.file, outcome.world, outcome.events⟩

def openFile (disk : Disk σ η) (world : σ) (file : ByteSource η) :
    Outcome σ (ByteSource η) (Except FileError Unit) :=
  match file with
  | .memory _ => ⟨.ok (), file, world, #[]⟩
  | .disk reader => ofReader (reader.openFile disk world)

def close (disk : Disk σ η) (world : σ) (file : ByteSource η) : Outcome σ (ByteSource η) Unit :=
  match file with
  | .memory _ => ⟨(), file, world, #[]⟩
  | .disk reader => ofReader (reader.close disk world)

def read (disk : Disk σ η) (world : σ) (file : ByteSource η) (position count : Nat) :
    Outcome σ (ByteSource η) (Except FileError ByteArray) :=
  match file with
  | .memory held => ⟨.ok (held.read position count), file, world, #[]⟩
  | .disk reader => ofReader (reader.read disk world position count)

end ByteSource

end FrontEnd
