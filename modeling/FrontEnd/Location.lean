import FrontEnd.Path.Table

/-! A point in a source: its file, its line and column counted from one, and its byte
offset counted from zero. A column counts characters. -/

namespace FrontEnd

structure Location where
  path : PathId
  line : UInt32
  column : UInt32
  offset : UInt32
  deriving DecidableEq

namespace Location

def startOf (path : PathId) : Location := ⟨path, 1, 1, 0⟩

/-- Where a point of a text lies when the text follows another one, which ends at `finish`. -/
def following (location finish : Location) : Location :=
  ⟨finish.path, finish.line + location.line - 1,
    if location.line = 1 then finish.column + location.column - 1 else location.column,
    finish.offset + location.offset⟩

def display (location : Location) : String :=
  toString location.line ++ ":" ++ toString location.column

def detailed (location : Location) : String :=
  toString location.path.index ++ ":" ++ location.display ++ "@" ++ toString location.offset

end Location

end FrontEnd
