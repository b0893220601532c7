import FrontEnd.Text.Unprintable
import FrontEnd.Text.Utf8

/-! Quoted texts: a string in double quotes, a character in single quotes, and a byte array
that is mostly text. The quote of the own kind, the backslash and four control characters
have short escapes, unprintable characters are written by number, and all others stand for
themselves. -/

namespace FrontEnd.Text

def hexDigits (value : Nat) : String := String.ofList (Nat.toDigits 16 value)

def escape (delimiter character : Char) : String :=
  if character == '\x00' then "\\0"
  else if character == '\t' then "\\t"
  else if character == '\r' then "\\r"
  else if character == '\n' then "\\n"
  else if character == '\\' || character == delimiter then "\\".push character
  else if isUnprintable character then "\\u\x7b" ++ hexDigits character.toNat ++ "\x7d"
  else character.toString

def quoteString (text : String) : String :=
  text.foldl (fun written character => written ++ escape '"' character) "\"" ++ "\""

def quoteChar (character : Char) : String :=
  "'" ++ escape '\'' character ++ "'"

/-- A byte that belongs to no character, by its two hexadecimal digits. -/
def escapeByte (byte : UInt8) : String :=
  let digits := (hexDigits byte.toNat).map Char.toUpper
  "\\x" ++ (if digits.length < 2 then "0" else "") ++ digits

/-- Bytes quoted as text, with the broken pieces written byte by byte. -/
def quoteBytes (bytes : ByteArray) : String :=
  let written := (Utf8.pieces bytes).map fun piece =>
    match piece with
    | .character value => escape '"' value
    | .broken bytes => String.join (bytes.map escapeByte)
  "\"" ++ String.join written ++ "\""

end FrontEnd.Text
