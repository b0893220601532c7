import FrontEnd.LexError
import FrontEnd.Token.Grammar

/-! What is wrong with a text that is no sequence of lexemes. A text falls into segments, its
longest words and the single characters between them, and the first segment that is neither
blank nor a lexeme is the offence. -/

namespace FrontEnd

/-- The words of a text, as long as they can be, and its other characters, one by one. -/
def segments (text : List Char) : List (List Char) :=
  text.splitBy fun left right => isWordCharacter left && isWordCharacter right

/-- What makes a segment an offence: it begins like a literal but is none, or it is a character
that begins nothing. -/
def offence? : List Char → Option LexErrorKind
  | [] => none
  | first :: rest =>
      if first.isDigit then
        if isIntegerLiteral (first :: rest) then none
        else some (.invalidLiteral (String.ofList (first :: rest)))
      else if isWordCharacter first || isWhitespace first
          || (TokenKind.ofPunctuation? first).isSome then none
      else some (.unexpectedCharacter first)

/-- The first offence among segments, and the characters before it. -/
def firstOffence? (before : List Char) : List (List Char) → Option (List Char × LexErrorKind)
  | [] => none
  | segment :: rest =>
      match offence? segment with
      | some kind => some (before, kind)
      | none => firstOffence? (before ++ segment) rest

/-- The offence of a text that is furthest to the left, and the characters before it. -/
def leftmostOffence? (text : List Char) : Option (List Char × LexErrorKind) :=
  firstOffence? [] (segments text)

end FrontEnd
