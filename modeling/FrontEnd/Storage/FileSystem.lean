import FrontEnd.Path
import FrontEnd.Storage.Disk

/-! A file system: directories, regular files, pipes, symbolic links, files that may not be
opened, and the files that are open. Names in a directory refer to numbered nodes. An open
file keeps its node when the name is removed or given to another node, and sees what is
written into the node. -/

namespace FrontEnd

inductive Node where
  | file (content : ByteArray)
  | directory (parent : Nat) (entries : List (List UInt8 × Nat))
  | pipe
  | link (target : List UInt8)
  | refused (cause : OsError)

structure OpenFile where
  node : Nat
  position : Nat

structure FileSystem where
  nodes : Array Node
  openFiles : Array (Option OpenFile)

namespace FileSystem

def rootDirectory : Nat := 0

def currentDirectory : Nat := 1

/-- The current directory, in a root directory that does not show it by name. -/
def empty : FileSystem := ⟨#[.directory rootDirectory [], .directory rootDirectory []], #[]⟩

def nameLimit : Nat := 255

def pathLimit : Nat := 4095

def linkLimit : Nat := 40

/-! Resolution of paths. -/

/-- What a path leads to: a node, or a name that a directory does not have. -/
inductive Found where
  | node (id : Nat)
  | missing (directory : Nat) (name : List UInt8)

/-- Follows the parts of a path from node `here` on. Every part, an empty one too, needs a
directory to be looked up in. -/
def walk (system : FileSystem) (links here : Nat) : List (List UInt8) → Except OsError Found
  | [] => .ok (.node here)
  | part :: rest =>
      match system.nodes[here]? with
      | some (.directory parent entries) =>
          if part = [] ∨ part = [0x2e] then system.walk links here rest
          else if part = [0x2e, 0x2e] then system.walk links parent rest
          else if nameLimit < part.length then .error .nameTooLong
          else
            match entries.lookup part with
            | none => if rest = [] then .ok (.missing here part) else .error .notFound
            | some child =>
                match system.nodes[child]? with
                | some (.link target) =>
                    match links with
                    | 0 => .error .tooManyLinks
                    | fewer + 1 =>
                        let start := if target.head? = some 0x2f then rootDirectory else here
                        system.walk fewer start (Path.splitSlashes target ++ rest)
                | _ => system.walk links child rest
      | _ => .error .notDirectory
termination_by parts => (links, parts.length)

def startOf (path : Path) : Nat := if path.isAbsolute then rootDirectory else currentDirectory

def find (system : FileSystem) (path : Path) : Except OsError Found :=
  if path.bytes.toList.contains 0 then .error .nullInName
  else if pathLimit < path.bytes.size then .error .nameTooLong
  else if path.bytes.size = 0 then .error .notFound
  else system.walk linkLimit (startOf path) (Path.splitSlashes path.bytes.toList)

/-! Changes. -/

def setNode (system : FileSystem) (id : Nat) (node : Node) : FileSystem :=
  { system with nodes := system.nodes.setIfInBounds id node }

def setEntry (system : FileSystem) (directory : Nat) (name : List UInt8) (child : Option Nat) :
    FileSystem :=
  match system.nodes[directory]? with
  | some (.directory parent entries) =>
      let others := entries.filter (·.1 ≠ name)
      let changed :=
        match child with
        | some id => others ++ [(name, id)]
        | none => others
      system.setNode directory (.directory parent changed)
  | _ => system

def addNode (system : FileSystem) (directory : Nat) (name : List UInt8) (node : Node) : FileSystem :=
  { system with nodes := system.nodes.push node }.setEntry directory name (some system.nodes.size)

def ensureDirectory (system : FileSystem) (here : Nat) : List (List UInt8) → FileSystem × Nat
  | [] => (system, here)
  | part :: rest =>
      match system.walk linkLimit here [part] with
      | .ok (.node child) => system.ensureDirectory child rest
      | .ok (.missing directory name) =>
          (system.addNode directory name (.directory directory [])).ensureDirectory system.nodes.size rest
      | .error _ => (system, here)

def splitLast (path : Path) : List (List UInt8) × List UInt8 :=
  let parts := (Path.splitSlashes path.bytes.toList).filter (· ≠ [])
  (parts.dropLast, parts.getLast?.getD [])

def create (system : FileSystem) (path : Path) (node : Node) : FileSystem :=
  let (above, name) := splitLast path
  let (system, directory) := system.ensureDirectory (startOf path) above
  system.addNode directory name node

def makeDirectory (system : FileSystem) (path : Path) : FileSystem :=
  (system.ensureDirectory (startOf path) (Path.splitSlashes path.bytes.toList)).1

def write (system : FileSystem) (path : Path) (content : ByteArray) : FileSystem :=
  match system.find path with
  | .ok (.node id) =>
      match system.nodes[id]? with
      | some (.file _) => system.setNode id (.file content)
      | _ => system
  | .ok (.missing directory name) => system.addNode directory name (.file content)
  | .error _ => system

def directoryOf? (system : FileSystem) (path : Path) : Option Nat :=
  match system.walk linkLimit (startOf path) (splitLast path).1 with
  | .ok (.node id) => some id
  | _ => none

def replace (system : FileSystem) (path : Path) (content : ByteArray) : FileSystem :=
  match system.directoryOf? path with
  | some directory => system.addNode directory (splitLast path).2 (.file content)
  | none => system

def remove (system : FileSystem) (path : Path) : FileSystem :=
  match system.directoryOf? path with
  | some directory => system.setEntry directory (splitLast path).2 none
  | none => system

/-! Open files. -/

def largestPosition : Nat := 9223372036854775807

def openFile (system : FileSystem) (path : Path) : Except OsError Nat × FileSystem :=
  match system.find path with
  | .ok (.node id) =>
      match system.nodes[id]? with
      | some (.refused cause) => (.error cause, system)
      | _ =>
          (.ok system.openFiles.size,
            { system with openFiles := system.openFiles.push (some ⟨id, 0⟩) })
  | .ok (.missing ..) => (.error .notFound, system)
  | .error cause => (.error cause, system)

def opened? (system : FileSystem) (handle : Nat) : Option (OpenFile × Node) :=
  match system.openFiles[handle]? with
  | some (some file) => (system.nodes[file.node]?).map fun node => (file, node)
  | _ => none

def moveTo (system : FileSystem) (handle : Nat) (file : OpenFile) (position : Nat) : FileSystem :=
  { system with
    openFiles := system.openFiles.setIfInBounds handle (some { file with position }) }

def seek (system : FileSystem) (handle : Nat) (target : SeekTarget) : Except OsError Unit × FileSystem :=
  match system.opened? handle, target with
  | none, _ => (.error .badHandle, system)
  | some (_, .pipe), _ => (.error .illegalSeek, system)
  | some (file, _), .position position =>
      if largestPosition < position then (.error .invalidArgument, system)
      else (.ok (), system.moveTo handle file position)
  | some (file, .file content), .finish => (.ok (), system.moveTo handle file content.size)
  | some (file, _), .finish => (.ok (), system.moveTo handle file largestPosition)

def read (system : FileSystem) (handle room : Nat) : Except OsError ByteArray × FileSystem :=
  match system.opened? handle with
  | some (file, .file content) =>
      let stop := min (file.position + room) content.size
      let bytes := content.extract file.position stop
      (.ok bytes, system.moveTo handle file (file.position + bytes.size))
  | some (_, .directory ..) => (.error .isDirectory, system)
  | some (_, .pipe) => (.ok ByteArray.empty, system)
  | _ => (.error .badHandle, system)

def close (system : FileSystem) (handle : Nat) : FileSystem :=
  { system with openFiles := system.openFiles.setIfInBounds handle none }

theorem size_read_le {system after : FileSystem} {handle room : Nat} {bytes : ByteArray}
    (outcome : system.read handle room = (.ok bytes, after)) : bytes.size ≤ room := by
  unfold read at outcome
  split at outcome
  · cases outcome
    simp only [ByteArray.size_extract]
    omega
  · cases outcome
  · cases outcome
    exact Nat.zero_le _
  · cases outcome

theorem read_ne_interrupted {system after : FileSystem} {handle room : Nat} :
    system.read handle room ≠ (.error .interrupted, after) := by
  unfold read
  split <;> simp

/-- A file system as a disk. Its reads are never interrupted, and stop short only at the end
of a file. -/
def disk : Disk FileSystem Nat where
  openFile := openFile
  seek := seek
  read := read
  close := close
  interruptions _ _ := 0
  size_read_le := size_read_le
  interruptions_read_lt outcome := absurd outcome read_ne_interrupted

end FileSystem

end FrontEnd
