import FrontEnd.Location
import FrontEnd.Text.Quoted

/-! Lexical errors: a malformed integer literal, shown as a whole, or a character that begins
no token. -/

namespace FrontEnd

inductive LexErrorKind where
  | invalidLiteral (text : String)
  | unexpectedCharacter (found : Char)
  deriving DecidableEq

namespace LexErrorKind

def message : LexErrorKind → String
  | .invalidLiteral text => "invalid integer literal `" ++ text ++ "`"
  | .unexpectedCharacter found => "unexpected character " ++ Text.quoteChar found

def detailed : LexErrorKind → String
  | .invalidLiteral text => "InvalidLiteral \x7b text: " ++ Text.quoteString text ++ " \x7d"
  | .unexpectedCharacter found =>
      "UnexpectedCharacter \x7b found: " ++ Text.quoteChar found ++ " \x7d"

end LexErrorKind

/-- A lexical error, at the first character of the literal or at the unexpected one. -/
structure LexError where
  kind : LexErrorKind
  location : Location
  deriving DecidableEq

namespace LexError

def message (error : LexError) : String := error.location.display ++ ": " ++ error.kind.message

def detailed (error : LexError) : String :=
  "LexError \x7b kind: " ++ error.kind.detailed ++ ", location: " ++ error.location.detailed ++ " \x7d"

end LexError

end FrontEnd
