import FrontEnd.Storage.ByteSource

/-! Loading a source: all bytes of a file, read in chunks from its start until a read yields
nothing, and then taken as text. -/

namespace FrontEnd

/-- How many bytes to ask for at a time, at least one. -/
structure ChunkSize where
  bytes : Nat
  positive : 0 < bytes
  deriving DecidableEq

namespace ChunkSize

def default : ChunkSize := ⟨65536, by decide⟩

def ofNat (size : Nat) : ChunkSize := ⟨max size 1, by omega⟩

end ChunkSize

inductive LoadError where
  | file (error : FileError)
  | text (path : Path) (error : SourceError)
  deriving DecidableEq

namespace LoadError

def message : LoadError → String
  | .file error => error.message
  | .text path _ => "invalid source file " ++ path.display

def cause : LoadError → String
  | .file error => error.cause.message
  | .text _ error => error.message

end LoadError

namespace ByteSource

variable {σ η : Type}

/-- No file has as many bytes as there are positions. -/
def positionLimit : Nat := 18446744073709551616

/-- Adds to `bytes` the rest of the file, which begins at the position after them. -/
def collect (disk : Disk σ η) (chunkSize : ChunkSize) (world : σ) (file : ByteSource η)
    (bytes : ByteArray) (events : Array Event) :
    Outcome σ (ByteSource η) (Except FileError ByteArray) :=
  if bytes.size < positionLimit then
    match file.read disk world bytes.size chunkSize.bytes with
    | ⟨.error error, file, world, reported⟩ => ⟨.error error, file, world, events ++ reported⟩
    | ⟨.ok chunk, file, world, reported⟩ =>
        if chunk.size = 0 then ⟨.ok bytes, file, world, events ++ reported⟩
        else collect disk chunkSize world file (bytes ++ chunk) (events ++ reported)
  else ⟨.ok bytes, file, world, events⟩
termination_by positionLimit - bytes.size
decreasing_by
  simp only [ByteArray.size_append]
  omega

def load (disk : Disk σ η) (world : σ) (file : ByteSource η) (chunkSize : ChunkSize) :
    Outcome σ (ByteSource η) (Except LoadError SourceText) :=
  match file.collect disk chunkSize world ByteArray.empty #[] with
  | ⟨.error error, file, world, events⟩ => ⟨.error (.file error), file, world, events⟩
  | ⟨.ok bytes, file, world, events⟩ =>
      let result :=
        match SourceText.ofBytes file.id bytes with
        | .ok source => .ok source
        | .error error => .error (.text file.displayPath error)
      ⟨result, file, world, events.push (.loadedSource bytes.size)⟩

def loadSpan (file : ByteSource η) : Span := .loadSource file.id

end ByteSource

end FrontEnd
