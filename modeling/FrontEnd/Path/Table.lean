import FrontEnd.Path

/-! Interned paths. A table gives each path a small number and gives it back for the
number. It keeps both ways: the numbers under the paths, where any spelling that agrees finds
the number, and the paths in the order of their numbers. The first entry of every table is the
name of source text that is not on disk. -/

namespace FrontEnd

structure PathId where
  index : UInt32
  deriving DecidableEq

namespace PathId

def memory : PathId := ⟨0⟩

def compare (left right : PathId) : Ordering := Ord.compare left.index right.index

def detailed (path : PathId) : String := "PathId(" ++ toString path.index ++ ")"

end PathId

inductive PathTableError where
  | overflow (count : Nat)
  deriving DecidableEq

def PathTableError.message : PathTableError → String
  | .overflow count =>
      "path table exceeded capacity: " ++ toString count ++ " paths, max is 4294967295"

structure PathTable where
  numbers : List (Path × PathId)
  paths : Array Path

namespace PathTable

def empty : PathTable := ⟨[(Path.memory, PathId.memory)], #[Path.memory]⟩

/-- As many paths as there are numbers for them. -/
def capacity : Nat := 4294967296

def size (table : PathTable) : Nat := table.paths.size

def isEmpty (table : PathTable) : Bool := table.size == 0

def find? (table : PathTable) (path : Path) : Option PathId :=
  (table.numbers.find? fun entry => entry.1.agrees path).map Prod.snd

/-- The number of a path, registered now if no spelling of it is. For a table below its
capacity. -/
def intern (table : PathTable) (path : Path) : PathId × PathTable :=
  match table.find? path with
  | some found => (found, table)
  | none =>
      let id : PathId := ⟨table.size.toUInt32⟩
      (id, ⟨(path, id) :: table.numbers, table.paths.push path⟩)

/-- The number of a path, unless the path is new and every number is taken. -/
def tryIntern (table : PathTable) (path : Path) : Except PathTableError (PathId × PathTable) :=
  if (table.find? path).isNone && capacity ≤ table.size then .error (.overflow table.size)
  else .ok (table.intern path)

def resolve? (table : PathTable) (path : PathId) : Option Path :=
  table.paths[path.index.toNat]?

/-- The path behind a number; a number of another table stands for no file. -/
def displayPath (table : PathTable) (path : PathId) : Path :=
  (table.resolve? path).getD Path.memory

def detailed (table : PathTable) : String :=
  "PathTable \x7b len: " ++ toString table.size ++ " \x7d"

end PathTable

end FrontEnd
