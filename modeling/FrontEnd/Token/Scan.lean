import FrontEnd.LexError
import FrontEnd.Source.Cursor
import FrontEnd.Token

/-! Scanning one token. A cursor that stands on a digit reads an integer literal, on a letter
or an underscore an identifier, and on a punctuation character that character. A literal
that does not fill its whole word is malformed. -/

namespace FrontEnd

namespace Cursor

/-- Reads an integer literal, with its base prefix as written. An error takes the rest of the
word with it. -/
def scanNumber (start : Cursor) : Except LexError Token × Cursor :=
  let radix := Radix.announced start.peek start.peekNext
  let digits := if radix = .decimal then start else start.advance.advance
  let stop := digits.eatWhile radix.isDigit
  if stop.offset = digits.offset || isWordCharacter stop.peek then
    let wordEnd := stop.eatWhile isWordCharacter
    (.error ⟨.invalidLiteral (wordEnd.textFrom start.offset), start.position⟩, wordEnd)
  else (.ok ⟨.integerLiteral, stop.textFrom start.offset, start.position⟩, stop)

def scanIdentifier (start : Cursor) : Token × Cursor :=
  let stop := start.eatWhile isWordCharacter
  (⟨.identifier, stop.textFrom start.offset, start.position⟩, stop)

def scanToken (start : Cursor) : Except LexError Token × Cursor :=
  let first := start.peek
  if first.isDigit then start.scanNumber
  else if isWordStart first then
    let (token, stop) := start.scanIdentifier
    (.ok token, stop)
  else
    match TokenKind.ofPunctuation? first with
    | some kind =>
        let stop := start.advance
        (.ok ⟨kind, stop.textFrom start.offset, start.position⟩, stop)
    | none => (.error ⟨.unexpectedCharacter first, start.position⟩, start)

theorem remaining_scanNumber_lt {start stop : Cursor} {token : Token}
    (scanned : start.scanNumber = (.ok token, stop)) : stop.remaining < start.remaining := by
  simp only [scanNumber] at scanned
  generalize shape : Radix.announced start.peek start.peekNext = radix at scanned
  generalize prefixed : (if radix = .decimal then start else start.advance.advance) = digits at scanned
  have closer : digits.remaining ≤ start.remaining := by
    subst prefixed
    split
    · exact Nat.le_refl _
    · exact Nat.le_trans (remaining_advance_le _) (remaining_advance_le _)
  split at scanned
  · cases scanned
  · rename_i filled
    cases scanned
    simp only [Bool.or_eq_true, decide_eq_true_eq, not_or] at filled
    exact Nat.lt_of_lt_of_le (remaining_eatWhile_lt_of_offset_ne filled.1) closer

theorem remaining_scanToken_lt {start stop : Cursor} {token : Token}
    (inside : start.isAtEnd = false) (scanned : start.scanToken = (.ok token, stop)) :
    stop.remaining < start.remaining := by
  simp only [scanToken] at scanned
  split at scanned
  · exact remaining_scanNumber_lt scanned
  · split at scanned
    · rename_i word
      cases scanned
      exact remaining_eatWhile_lt inside (isWordCharacter_of_isWordStart word)
    · split at scanned
      · cases scanned
        exact remaining_advance_lt inside
      · cases scanned

end Cursor

end FrontEnd
