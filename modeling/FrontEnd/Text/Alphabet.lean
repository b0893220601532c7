/-! The classes of characters that a source is read by. None has a character beyond ASCII. -/

namespace FrontEnd

def isWhitespace (character : Char) : Bool :=
  character == ' ' || character == '\t' || character == '\r' || character == '\n'

def isWordStart (character : Char) : Bool := character.isAlpha || character == '_'

def isWordCharacter (character : Char) : Bool := character.isAlphanum || character == '_'

theorem isWordCharacter_of_isWordStart {character : Char} (start : isWordStart character = true) :
    isWordCharacter character = true := by
  simp only [isWordStart, isWordCharacter, Char.isAlphanum, Bool.or_eq_true] at start ⊢
  exact start.imp Or.inl id

inductive Radix where
  | binary
  | decimal
  | hexadecimal
  deriving DecidableEq

namespace Radix

def isDigit : Radix → Char → Bool
  | .binary, character => character == '0' || character == '1'
  | .decimal, character => character.isDigit
  | .hexadecimal, character => character.isHexDigit

/-- The base that the first two characters of a literal announce. -/
def announced : Char → Char → Radix
  | '0', 'x' | '0', 'X' => .hexadecimal
  | '0', 'b' | '0', 'B' => .binary
  | _, _ => .decimal

end Radix

end FrontEnd
