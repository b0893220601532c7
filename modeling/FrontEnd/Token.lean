import FrontEnd.Location

/-! Tokens: their kinds, and a kind with the text it was written as and its place. A token
that was not written has a fixed text: a semicolon for a statement terminator that was
left out, and the null character for the end of the stream. -/

namespace FrontEnd

inductive TokenKind where
  | integerLiteral
  | identifier
  | semicolon
  | comma
  | dot
  | colon
  | equal
  | leftParen
  | rightParen
  | leftBracket
  | rightBracket
  | leftBrace
  | rightBrace
  | endOfStream
  deriving DecidableEq

namespace TokenKind

def all : List TokenKind :=
  [.integerLiteral, .identifier, .semicolon, .comma, .dot, .colon, .equal, .leftParen, .rightParen,
    .leftBracket, .rightBracket, .leftBrace, .rightBrace, .endOfStream]

def name : TokenKind → String
  | .integerLiteral => "IntegerLiteral"
  | .identifier => "Identifier"
  | .semicolon => "Semicolon"
  | .comma => "Comma"
  | .dot => "Dot"
  | .colon => "Colon"
  | .equal => "Equal"
  | .leftParen => "LeftParen"
  | .rightParen => "RightParen"
  | .leftBracket => "LeftBracket"
  | .rightBracket => "RightBracket"
  | .leftBrace => "LeftBrace"
  | .rightBrace => "RightBrace"
  | .endOfStream => "End"

def ofName? (name : String) : Option TokenKind := all.find? (·.name == name)

def display : TokenKind → String
  | .integerLiteral => "integer literal"
  | .identifier => "identifier"
  | .semicolon => "`;`"
  | .comma => "`,`"
  | .dot => "`.`"
  | .colon => "`:`"
  | .equal => "`=`"
  | .leftParen => "`(`"
  | .rightParen => "`)`"
  | .leftBracket => "`[`"
  | .rightBracket => "`]`"
  | .leftBrace => "`\x7b`"
  | .rightBrace => "`\x7d`"
  | .endOfStream => "end of file"

def ofPunctuation? : Char → Option TokenKind
  | ';' => some .semicolon
  | ',' => some .comma
  | '.' => some .dot
  | ':' => some .colon
  | '=' => some .equal
  | '(' => some .leftParen
  | ')' => some .rightParen
  | '[' => some .leftBracket
  | ']' => some .rightBracket
  | '\x7b' => some .leftBrace
  | '\x7d' => some .rightBrace
  | _ => none

def endsStatement : TokenKind → Bool
  | .integerLiteral | .identifier | .rightParen | .rightBracket | .rightBrace => true
  | _ => false

end TokenKind

structure Token where
  kind : TokenKind
  text : String
  location : Location
  deriving DecidableEq

namespace Token

def isEnd (token : Token) : Bool := token.kind == .endOfStream

def detailed (token : Token) : String :=
  token.kind.name ++ "(" ++ Text.quoteString token.text ++ ") @ " ++ token.location.display

end Token

end FrontEnd
