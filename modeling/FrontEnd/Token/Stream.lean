import FrontEnd.Log.Event
import FrontEnd.Token.Scan

/-! Token streams. A stream yields the tokens under a cursor one by one. When nothing is left
and the last token can end a statement, it adds the semicolon that was left out; then it
yields the end token, and after it, or after an error, nothing. -/

namespace FrontEnd

inductive StreamPhase where
  | scanning
  | ending
  | done
  deriving DecidableEq

structure TokenStream where
  cursor : Cursor
  phase : StreamPhase
  lastKind : Option TokenKind

namespace TokenStream

def ofCursor (cursor : Cursor) : TokenStream := ⟨cursor, .scanning, none⟩

def isFinished (stream : TokenStream) : Bool := stream.phase == .done

def endToken (cursor : Cursor) : Token := ⟨.endOfStream, cursor.sentinelText, cursor.position⟩

def terminator (cursor : Cursor) : Token := ⟨.semicolon, ";", cursor.position⟩

def next? (stream : TokenStream) : Option (Except LexError Token × TokenStream) :=
  match stream.phase with
  | .done => none
  | .ending => some (.ok (endToken stream.cursor), ⟨stream.cursor, .done, some .endOfStream⟩)
  | .scanning =>
      let start := stream.cursor.eatWhitespace
      if start.isAtEnd then
        if stream.lastKind.any TokenKind.endsStatement then
          some (.ok (terminator start), ⟨start, .ending, some .semicolon⟩)
        else some (.ok (endToken start), ⟨start, .done, some .endOfStream⟩)
      else
        match start.scanToken with
        | (.ok token, stop) => some (.ok token, ⟨stop, .scanning, some token.kind⟩)
        | (.error error, stop) => some (.error error, ⟨stop, .done, stream.lastKind⟩)

def measure (stream : TokenStream) : Nat :=
  match stream.phase with
  | .scanning => stream.cursor.remaining + 2
  | .ending => 1
  | .done => 0

theorem measure_next?_lt {stream after : TokenStream} {item : Except LexError Token}
    (yielded : stream.next? = some (item, after)) : after.measure < stream.measure := by
  unfold next? at yielded
  split at yielded
  · cases yielded
  · rename_i phase
    cases yielded
    simp [measure, phase]
  · rename_i phase
    simp only [] at yielded
    split at yielded
    · split at yielded <;> cases yielded <;> simp [measure, phase]
    · rename_i inside
      split at yielded
      · rename_i scanned
        cases yielded
        have closer := Cursor.remaining_scanToken_lt (by simpa using inside) scanned
        have skipped := Cursor.remaining_eatWhile_le isWhitespace stream.cursor
        simp only [measure, phase]
        simp only [Cursor.eatWhitespace] at closer
        omega
      · cases yielded
        simp [measure, phase]

def items (stream : TokenStream) : List (Except LexError Token) :=
  match yielded : stream.next? with
  | none => []
  | some (item, after) =>
      have := measure_next?_lt yielded
      item :: items after
termination_by stream.measure

def events (before : TokenStream) (item : Except LexError Token) (after : TokenStream) : Array Event :=
  match item with
  | .error error => #[.stoppedOnError error]
  | .ok token =>
      if before.phase = .scanning ∧ after.phase = .ending then
        #[.addedTerminator token.location, .scannedToken token]
      else #[.scannedToken token]

end TokenStream

end FrontEnd
