/-! Failures that an operating system reports for a file. -/

namespace FrontEnd

inductive OsError where
  | nullInName
  | notFound
  | notDirectory
  | tooManyLinks
  | nameTooLong
  | isDirectory
  | illegalSeek
  | invalidArgument
  | unexpectedEnd
  | interrupted
  | badHandle
  | other (description : String)
  deriving DecidableEq

namespace OsError

def message : OsError → String
  | .nullInName => "file name contained an unexpected NUL byte"
  | .notFound => "No such file or directory (os error 2)"
  | .notDirectory => "Not a directory (os error 20)"
  | .tooManyLinks => "Too many levels of symbolic links (os error 40)"
  | .nameTooLong => "File name too long (os error 36)"
  | .isDirectory => "Is a directory (os error 21)"
  | .illegalSeek => "Illegal seek (os error 29)"
  | .invalidArgument => "Invalid argument (os error 22)"
  | .unexpectedEnd => "unexpected end of file"
  | .interrupted => "Interrupted system call (os error 4)"
  | .badHandle => "Bad file descriptor (os error 9)"
  | .other description => description

/-- The failure with an error number, or else with a description of its own. -/
def ofCode (code : Nat) (description : String) : OsError :=
  match code with
  | 2 => .notFound
  | 4 => .interrupted
  | 9 => .badHandle
  | 20 => .notDirectory
  | 21 => .isDirectory
  | 22 => .invalidArgument
  | 29 => .illegalSeek
  | 36 => .nameTooLong
  | 40 => .tooManyLinks
  | _ => .other (description ++ " (os error " ++ toString code ++ ")")

/-- Whether a seek failed only because no file reaches the position. -/
def isOutOfRange : OsError → Bool
  | .nullInName | .invalidArgument | .unexpectedEnd => true
  | _ => false

end OsError

end FrontEnd
