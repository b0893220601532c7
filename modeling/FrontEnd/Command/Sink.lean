/-! Where a command writes its output: a text that grows, with room for any number of bytes or
only for so many. A text that does not fit is written as far as it fits. -/

namespace FrontEnd

structure Sink where
  written : String
  /-- The number of bytes that still fit; all fit without it. -/
  room : Option Nat

namespace Sink

def unlimited : Sink := ⟨"", none⟩

def ofRoom (room : Option Nat) : Sink := ⟨"", room⟩

def fullMessage : String := "sink full"

/-- The characters at the front of a text that take up no more than `room` bytes. -/
def fitting (room : Nat) : List Char → List Char
  | [] => []
  | character :: rest =>
      if character.utf8Size ≤ room then character :: fitting (room - character.utf8Size) rest
      else []

def write (sink : Sink) (text : String) : Sink × Except String Unit :=
  match sink.room with
  | none => ({ sink with written := sink.written ++ text }, .ok ())
  | some room =>
      if text.utf8ByteSize ≤ room then
        (⟨sink.written ++ text, some (room - text.utf8ByteSize)⟩, .ok ())
      else
        (⟨sink.written ++ String.ofList (fitting room text.toList), some 0⟩, .error fullMessage)

end Sink

end FrontEnd
