import FrontEnd.Text.Quoted

/-! Paths are byte strings. Two spellings name the same path when their components agree:
repeated slashes, a trailing slash, and every single dot but a leading one do not count. -/

namespace FrontEnd

structure Path where
  bytes : ByteArray

instance : DecidableEq Path := fun left right =>
  match decEq left.bytes.data right.bytes.data with
  | isTrue same => isTrue (congrArg (fun data => (⟨⟨data⟩⟩ : Path)) same)
  | isFalse different => isFalse fun same => different (congrArg (fun path => path.bytes.data) same)

namespace Path

def ofString (text : String) : Path := ⟨text.toUTF8⟩

/-- The name that stands for source text that is not on disk. -/
def memory : Path := ofString "<memory>"

def display (path : Path) : String := Utf8.displayText path.bytes

def quoted (path : Path) : String := Text.quoteBytes path.bytes

/-- The parts between slashes, empty ones included. -/
def splitSlashes : List UInt8 → List (List UInt8)
  | [] => [[]]
  | byte :: rest =>
      if byte = 0x2f then [] :: splitSlashes rest
      else
        match splitSlashes rest with
        | [] => [[byte]]
        | part :: parts => (byte :: part) :: parts

def isAbsolute (path : Path) : Bool := path.bytes[0]? == some 0x2f

inductive Component where
  | root
  | here
  | parent
  | name (bytes : List UInt8)
  deriving DecidableEq

/-- What a part between slashes counts for; an empty part and a dot count for nothing. -/
def Component.ofPart? : List UInt8 → Option Component
  | [] => none
  | [0x2e] => none
  | [0x2e, 0x2e] => some .parent
  | part => some (.name part)

def components (path : Path) : List Component :=
  let parts := splitSlashes path.bytes.toList
  let named := parts.filterMap Component.ofPart?
  if path.isAbsolute then .root :: named
  else if parts.head? = some [0x2e] then .here :: named
  else named

def agrees (left right : Path) : Bool := left.components == right.components

end Path

end FrontEnd
