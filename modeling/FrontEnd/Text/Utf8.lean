/-! UTF-8 text in byte arrays. A byte array decodes into a string exactly when it is a
sequence of whole characters; otherwise the length of its longest such initial part says
where it breaks. Bytes that are only displayed are read piece by piece, and every piece
that is not a character is kept apart. -/

namespace FrontEnd.Utf8

/-- The end of the run of whole characters that begins at byte `start`. -/
def decodedEnd (bytes : ByteArray) (start : Nat) : Nat :=
  if start < bytes.size then
    match bytes.utf8DecodeChar? start with
    | some character => decodedEnd bytes (start + character.utf8Size)
    | none => start
  else start
termination_by bytes.size - start
decreasing_by
  have width := character.utf8Size_pos
  omega

def validLength (bytes : ByteArray) : Nat := decodedEnd bytes 0

/-- Decodes all the bytes, or gives the offset of the first that is part of no character. -/
def decode (bytes : ByteArray) : Except Nat String :=
  match String.fromUTF8? bytes with
  | some text => .ok text
  | none => .error (validLength bytes)

/-- A byte that continues a character begun before it. -/
def isContinuation (byte : UInt8) : Bool := 0x80 ≤ byte && byte ≤ 0xbf

/-- Whether offset `index` lies between two characters of a text, or at one of its ends. -/
def isBoundary (bytes : ByteArray) (index : Nat) : Bool :=
  match bytes[index]? with
  | some byte => !isContinuation byte
  | none => index == bytes.size

/-- Whether `second` may follow `first` at the start of a character of three or four bytes. -/
def leadsLongCharacter (first second : UInt8) : Bool :=
  if first == 0xe0 then 0xa0 ≤ second && second ≤ 0xbf
  else if first == 0xed then 0x80 ≤ second && second ≤ 0x9f
  else if first == 0xf0 then 0x90 ≤ second && second ≤ 0xbf
  else if first == 0xf4 then 0x80 ≤ second && second ≤ 0x8f
  else 0xe1 ≤ first && first ≤ 0xf3 && isContinuation second

/-- The length of the broken piece at `start`, where no character begins: as many bytes as
some character could have started with, and at least one. -/
def brokenLength (bytes : ByteArray) (start : Nat) : Nat :=
  match bytes[start]?, bytes[start + 1]? with
  | some first, some second =>
      if leadsLongCharacter first second then
        match bytes[start + 2]? with
        | some third => if 0xf0 ≤ first && isContinuation third then 3 else 2
        | none => 2
      else 1
  | _, _ => 1

theorem brokenLength_pos (bytes : ByteArray) (start : Nat) : 0 < brokenLength bytes start := by
  unfold brokenLength
  split
  · split
    · split
      · split <;> omega
      · omega
    · omega
  · omega

inductive Piece where
  | character (value : Char)
  | broken (bytes : List UInt8)
  deriving DecidableEq

def piecesFrom (bytes : ByteArray) (start : Nat) : List Piece :=
  if start < bytes.size then
    match bytes.utf8DecodeChar? start with
    | some character => .character character :: piecesFrom bytes (start + character.utf8Size)
    | none =>
        let stop := start + brokenLength bytes start
        .broken (bytes.extract start stop).toList :: piecesFrom bytes stop
  else []
termination_by bytes.size - start
decreasing_by
  · have width := character.utf8Size_pos
    omega
  · have width := brokenLength_pos bytes start
    omega

def pieces (bytes : ByteArray) : List Piece := piecesFrom bytes 0

def displayText (bytes : ByteArray) : String :=
  match String.fromUTF8? bytes with
  | some text => text
  | none => String.ofList ((pieces bytes).map fun piece =>
      match piece with
      | .character value => value
      | .broken _ => '\uFFFD')

end FrontEnd.Utf8
