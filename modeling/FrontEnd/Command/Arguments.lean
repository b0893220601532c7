import FrontEnd.Storage.Load

/-! Arguments of the command that prints tokens: one path, and options that set the chunk size
of reads. Options may stand anywhere, and the last one counts. -/

namespace FrontEnd

structure LexArguments where
  path : Path
  chunkSize : ChunkSize
  deriving DecidableEq

inductive ArgumentError where
  | invalidChunkSize (value : String)
  | zeroChunkSize
  | unknownOption (argument : String)
  | unexpectedArgument (argument : String)
  | missingPath
  deriving DecidableEq

def ArgumentError.message : ArgumentError → String
  | .invalidChunkSize value => "invalid chunk size '" ++ value ++ "'"
  | .zeroChunkSize => "chunk size must be at least 1"
  | .unknownOption argument => "unknown option '" ++ argument ++ "'"
  | .unexpectedArgument argument => "unexpected argument '" ++ argument ++ "'"
  | .missingPath => "missing file path"

namespace LexArguments

def sizeLimit : Nat := 18446744073709551615

def decimalValue (digits : List Char) : Nat :=
  digits.foldl (fun value digit => 10 * value + (digit.toNat - '0'.toNat)) 0

/-- A size in decimal digits, with or without a plus sign. -/
def parseSize? (text : String) : Option Nat :=
  let digits :=
    match text.toList with
    | '+' :: rest => rest
    | all => all
  if digits ≠ [] ∧ digits.all Char.isDigit ∧ decimalValue digits ≤ sizeLimit then
    some (decimalValue digits)
  else none

def chunkSizeOption : List Char := "--chunk-size=".toList

def chunkSizeValue? (argument : String) : Option String :=
  if chunkSizeOption.isPrefixOf argument.toList then
    some (String.ofList (argument.toList.drop chunkSizeOption.length))
  else none

def isOption (argument : String) : Bool := argument.toList.head? == some '-'

def parseFrom (path : Option Path) (chunkSize : ChunkSize) :
    List String → Except ArgumentError LexArguments
  | [] =>
      match path with
      | some path => .ok ⟨path, chunkSize⟩
      | none => .error .missingPath
  | argument :: rest =>
      match chunkSizeValue? argument with
      | some value =>
          match parseSize? value with
          | none => .error (.invalidChunkSize value)
          | some 0 => .error .zeroChunkSize
          | some size => parseFrom path (ChunkSize.ofNat size) rest
      | none =>
          if isOption argument then .error (.unknownOption argument)
          else
            match path with
            | none => parseFrom (some (Path.ofString argument)) chunkSize rest
            | some _ => .error (.unexpectedArgument argument)

def parse (arguments : List String) : Except ArgumentError LexArguments :=
  parseFrom none ChunkSize.default arguments

end LexArguments

end FrontEnd
