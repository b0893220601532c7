import FrontEnd.Path.Table
import FrontEnd.Text.Utf8

/-! The text of one source, of a size that 32 bits can count. A cursor sees it padded with zero
bytes, so that what follows its end can be read like the rest. A byte order mark at the start
and null characters are text, but are listed as encoding issues. -/

namespace FrontEnd

inductive SourceError where
  | invalidUtf8 (offset : Nat)
  | tooLarge (length : Nat)
  deriving DecidableEq

def SourceError.message : SourceError → String
  | .invalidUtf8 offset =>
      "source is not valid UTF-8 (first invalid byte at offset " ++ toString offset ++ ")"
  | .tooLarge length =>
      "source is " ++ toString length ++ " bytes, larger than the 4294967295 byte limit"

inductive EncodingIssueKind where
  | byteOrderMark
  | interiorNull
  deriving DecidableEq

def EncodingIssueKind.name : EncodingIssueKind → String
  | .byteOrderMark => "Utf8Bom"
  | .interiorNull => "InteriorNull"

/-- A byte sequence that is text but does not belong into a source. -/
structure EncodingIssue where
  kind : EncodingIssueKind
  position : Nat
  length : Nat
  deriving DecidableEq

namespace EncodingIssue

def startsWithByteOrderMark (bytes : ByteArray) : Bool :=
  bytes[0]? == some 0xef && bytes[1]? == some 0xbb && bytes[2]? == some 0xbf

def nullOffsets (bytes : ByteArray) (start : Nat) : List Nat :=
  if inside : start < bytes.size then
    if bytes[start] = 0 then start :: nullOffsets bytes (start + 1)
    else nullOffsets bytes (start + 1)
  else []
termination_by bytes.size - start

def all (bytes : ByteArray) : List EncodingIssue :=
  (if startsWithByteOrderMark bytes then [⟨.byteOrderMark, 0, 3⟩] else [])
    ++ (nullOffsets bytes 0).map fun offset => ⟨.interiorNull, offset, 1⟩

end EncodingIssue

def sourceLimit : Nat := 4294967295

structure SourceText where
  path : PathId
  text : String
  size_le : text.utf8ByteSize ≤ sourceLimit

namespace SourceText

def ofText (path : PathId) (text : String) : Except SourceError SourceText :=
  if fits : text.utf8ByteSize ≤ sourceLimit then .ok ⟨path, text, fits⟩
  else .error (.tooLarge text.utf8ByteSize)

def ofBytes (path : PathId) (bytes : ByteArray) : Except SourceError SourceText :=
  match Utf8.decode bytes with
  | .ok text => ofText path text
  | .error offset => .error (.invalidUtf8 offset)

def length (source : SourceText) : Nat := source.text.utf8ByteSize

def isEmpty (source : SourceText) : Bool := source.length == 0

def bytes (source : SourceText) : ByteArray := source.text.toUTF8

/-- The first multiple of 64 that leaves room for four zero bytes. -/
def paddedLength (length : Nat) : Nat := (length + 4 + 63) / 64 * 64

def padded (source : SourceText) : ByteArray :=
  source.bytes ++ ⟨Array.replicate (paddedLength source.length - source.length) 0⟩

def issues (source : SourceText) : List EncodingIssue := EncodingIssue.all source.bytes

end SourceText

end FrontEnd
