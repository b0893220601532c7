import FrontEnd.Text.Alphabet
import FrontEnd.Token

/-! The lexical grammar: how the tokens of each kind are spelled, and which texts are lexemes
with blanks around them. A layout keeps both, so that it gives back the text it was read
from; it also tells which tokens that text has. -/

namespace FrontEnd

def isIntegerLiteral : List Char → Bool
  | '0' :: 'x' :: digits | '0' :: 'X' :: digits =>
      !digits.isEmpty && digits.all Radix.hexadecimal.isDigit
  | '0' :: 'b' :: digits | '0' :: 'B' :: digits =>
      !digits.isEmpty && digits.all Radix.binary.isDigit
  | digits => !digits.isEmpty && digits.all Radix.decimal.isDigit

def isIdentifier : List Char → Bool
  | [] => false
  | first :: rest => isWordStart first && rest.all isWordCharacter

/-- Whether a source may spell a token of this kind so. The end of the stream is not spelled. -/
def TokenKind.isSpelledBy : TokenKind → List Char → Bool
  | .integerLiteral, text => isIntegerLiteral text
  | .identifier, text => isIdentifier text
  | kind, [character] => ofPunctuation? character == some kind
  | _, _ => false

/-- Kinds whose tokens are words. They are not punctuation, and reach as far as they can. -/
def TokenKind.isWord : TokenKind → Bool
  | .integerLiteral | .identifier => true
  | _ => false

structure Lexeme where
  gap : List Char
  kind : TokenKind
  text : List Char
  deriving DecidableEq

/-- What a text is made of: lexemes, and blanks after the last one. -/
structure Layout where
  lexemes : List Lexeme
  gap : List Char
  deriving DecidableEq

namespace Layout

def textFrom (lexemes : List Lexeme) (ending : List Char) : List Char :=
  lexemes.foldr (fun lexeme rest => lexeme.gap ++ (lexeme.text ++ rest)) ending

def text (layout : Layout) : List Char := textFrom layout.lexemes layout.gap

/-- Whether a text goes on with a character that would belong to a word before it. -/
def continuesWord : List Char → Bool
  | [] => false
  | character :: _ => isWordCharacter character

def isValidFrom (ending : List Char) : List Lexeme → Bool
  | [] => ending.all isWhitespace
  | lexeme :: rest =>
      lexeme.gap.all isWhitespace && lexeme.kind.isSpelledBy lexeme.text
        && !(lexeme.kind.isWord && continuesWord (textFrom rest ending)) && isValidFrom ending rest

/-- Whether the gaps are blank, the lexemes are spelled right, and every word ends where its
lexeme does. -/
def isValid (layout : Layout) : Bool := isValidFrom layout.gap layout.lexemes

def wantsTerminator (layout : Layout) : Bool :=
  layout.lexemes.getLast?.any (·.kind.endsStatement)

def tokens (layout : Layout) : List (TokenKind × String) :=
  layout.lexemes.map (fun lexeme => (lexeme.kind, String.ofList lexeme.text))
    ++ (if layout.wantsTerminator then [(.semicolon, ";")] else []) ++ [(.endOfStream, "\x00")]

end Layout

end FrontEnd
