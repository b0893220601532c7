import FrontEnd.Proofs.Source.Slices
import FrontEnd.Proofs.Token.Protocol

/-! Streams that are read with care: a text that cannot be cut out of the source stops them. Over
any source they are never stopped, and answer as they do without that care. -/

namespace FrontEnd

namespace Cursor

def scanNumber? (start : Cursor) : Option (Except LexError Token × Cursor) := do
  let radix := Radix.announced start.peek start.peekNext
  let digits := if radix = .decimal then start else start.advance.advance
  let stop := digits.eatWhile radix.isDigit
  if stop.offset = digits.offset || isWordCharacter stop.peek then
    let wordEnd := stop.eatWhile isWordCharacter
    let text ← wordEnd.sliceFrom? start.offset
    return (.error ⟨.invalidLiteral text, start.position⟩, wordEnd)
  else
    let text ← stop.sliceFrom? start.offset
    return (.ok ⟨.integerLiteral, text, start.position⟩, stop)

def scanIdentifier? (start : Cursor) : Option (Token × Cursor) := do
  let stop := start.eatWhile isWordCharacter
  let text ← stop.sliceFrom? start.offset
  return (⟨.identifier, text, start.position⟩, stop)

def scanToken? (start : Cursor) : Option (Except LexError Token × Cursor) :=
  let first := start.peek
  if first.isDigit then start.scanNumber?
  else if isWordStart first then do
    let (token, stop) ← start.scanIdentifier?
    return (.ok token, stop)
  else
    match TokenKind.ofPunctuation? first with
    | some kind => do
        let stop := start.advance
        let text ← stop.sliceFrom? start.offset
        return (.ok ⟨kind, text, start.position⟩, stop)
    | none => some (.error ⟨.unexpectedCharacter first, start.position⟩, start)

end Cursor

namespace TokenStream

def endToken? (cursor : Cursor) : Option Token := do
  let text ← cursor.slice? cursor.length (cursor.length + 1)
  return ⟨.endOfStream, text, cursor.position⟩

/-- A call that gives nothing where a text cannot be cut out. -/
def call? (stream : TokenStream) : Option (Option (Except LexError Token) × TokenStream) :=
  match stream.phase with
  | .done => some (none, stream)
  | .ending => do
      let token ← endToken? stream.cursor
      return (some (.ok token), ⟨stream.cursor, .done, some .endOfStream⟩)
  | .scanning =>
      let start := stream.cursor.eatWhitespace
      if start.isAtEnd then
        if stream.lastKind.any TokenKind.endsStatement then
          some (some (.ok (terminator start)), ⟨start, .ending, some .semicolon⟩)
        else do
          let token ← endToken? start
          return (some (.ok token), ⟨start, .done, some .endOfStream⟩)
      else do
        let (item, stop) ← start.scanToken?
        match item with
        | .ok token => return (some (.ok token), ⟨stop, .scanning, some token.kind⟩)
        | .error error => return (some (.error error), ⟨stop, .done, stream.lastKind⟩)

end TokenStream

namespace SourceText.Visits

variable {source : SourceText} {start stop : Cursor}

theorem sliceFrom?_eq (visited : source.Visits start) (walk : start.Reaches stop) :
    stop.sliceFrom? start.offset = some (stop.textFrom start.offset) := by
  have reached := visited.reaches walk
  obtain ⟨before, ahead, divides⟩ := visits_iff_exists_divides.mp visited
  obtain ⟨steps, rfl⟩ := walk
  have ordered : start.offset ≤ (Cursor.advance^[steps] start).offset := by
    rw [divides.offset_eq, (divides.iterate steps).offset_eq, List.utf8Encode_append,
      ByteArray.size_append]
    exact Nat.le_add_right _ _
  obtain ⟨_, _, cut⟩ := reached.slice?_offsets visited reached ordered
  rw [Cursor.textFrom, Cursor.sliceFrom?, cut]
  rfl

theorem scanNumber?_eq (visited : source.Visits start) :
    start.scanNumber? = some start.scanNumber := by
  simp only [Cursor.scanNumber?, Cursor.scanNumber]
  generalize Radix.announced start.peek start.peekNext = radix
  have behind : start.Reaches (if radix = .decimal then start else start.advance.advance) := by
    split
    · exact .refl start
    · exact (Cursor.Reaches.refl start).advance.advance
  generalize (if radix = .decimal then start else start.advance.advance) = digits at *
  have stop := behind.eatWhile radix.isDigit
  rw [visited.sliceFrom?_eq stop, visited.sliceFrom?_eq (stop.eatWhile isWordCharacter)]
  split <;> rfl

theorem scanToken?_eq (visited : source.Visits start) :
    start.scanToken? = some start.scanToken := by
  have word := visited.sliceFrom?_eq ((Cursor.Reaches.refl start).eatWhile isWordCharacter)
  have one := visited.sliceFrom?_eq (Cursor.Reaches.refl start).advance
  simp only [Cursor.scanToken?, Cursor.scanToken, visited.scanNumber?_eq, Cursor.scanIdentifier?,
    Cursor.scanIdentifier, word, one]
  split
  · rfl
  · split
    · rfl
    · cases TokenKind.ofPunctuation? start.peek <;> rfl

theorem endToken?_eq (visited : source.Visits start) :
    TokenStream.endToken? start = some (TokenStream.endToken start) := by
  obtain ⟨before, ahead, divides⟩ := visits_iff_exists_divides.mp visited
  rw [TokenStream.endToken?, TokenStream.endToken, divides.slice?_sentinel, divides.sentinelText_eq]
  rfl

end SourceText.Visits

namespace TokenStream

theorem reaches_next? {stream after : TokenStream} {item : Except LexError Token}
    (yielded : stream.next? = some (item, after)) : stream.cursor.Reaches after.cursor := by
  have skipped : stream.cursor.Reaches stream.cursor.eatWhitespace :=
    (Cursor.Reaches.refl stream.cursor).eatWhile isWhitespace
  have scanned := skipped.trans stream.cursor.eatWhitespace.reaches_scanToken
  obtain ⟨cursor, phase, lastKind⟩ := stream
  cases phase with
  | done => cases yielded
  | ending =>
      cases yielded
      exact .refl cursor
  | scanning =>
      simp only [next?] at yielded
      split at yielded
      · split at yielded <;> cases yielded <;> exact skipped
      · split at yielded
        all_goals
          rename_i found
          cases yielded
          rw [found] at scanned
          exact scanned

theorem reaches_call (stream : TokenStream) : stream.cursor.Reaches stream.call.2.cursor := by
  cases yielded : stream.next? with
  | none =>
      rw [call_of_none yielded]
      exact .refl stream.cursor
  | some pair =>
      rw [call_of_some yielded]
      exact reaches_next? yielded

theorem reaches_after (stream : TokenStream) (calls : Nat) :
    stream.cursor.Reaches (stream.after calls).cursor := by
  induction calls generalizing stream with
  | zero => exact .refl stream.cursor
  | succ calls ih => exact stream.reaches_call.trans (ih stream.call.2)

theorem call?_eq {source : SourceText} {stream : TokenStream}
    (visited : source.Visits stream.cursor) : stream.call? = some stream.call := by
  have skipped : source.Visits stream.cursor.eatWhitespace :=
    visited.reaches ((Cursor.Reaches.refl stream.cursor).eatWhile isWhitespace)
  obtain ⟨cursor, phase, lastKind⟩ := stream
  cases phase with
  | done => rfl
  | ending => simp [call?, call, next?, visited.endToken?_eq]
  | scanning =>
      simp only [call?, call, next?, skipped.endToken?_eq, skipped.scanToken?_eq]
      split
      · split <;> rfl
      · cases cursor.eatWhitespace.scanToken with
        | mk item stop => cases item <;> rfl

theorem call?_after {source : SourceText} {cursor : Cursor} (visited : source.Visits cursor)
    (calls : Nat) :
    ((ofCursor cursor).after calls).call? = some ((ofCursor cursor).after calls).call :=
  call?_eq (visited.reaches ((ofCursor cursor).reaches_after calls))

end TokenStream

namespace SourceText

/-- A text is cut out of a source exactly between two places of it that are in order, and it is the
text between them. The offsets of cursors are such places: between two of them lies what the first
consumes on its way to the second, what is cut in between falls into two parts, and no stream is
ever stopped by a text that cannot be cut out. -/
theorem slice?_exact (source : SourceText) (cursor : Cursor) (visited : source.Visits cursor) :
    (∀ start stop, stop ≤ source.length →
      ((cursor.slice? start stop).isSome = true ↔
        start ≤ stop ∧ source.HasPlace start ∧ source.HasPlace stop) ∧
      ∀ text, cursor.slice? start stop = some text ↔
        ∃ before middle rest, source.text.toList = before ++ (middle ++ rest) ∧
          (before.map Char.utf8Size).sum = start ∧
          ((before ++ middle).map Char.utf8Size).sum = stop ∧ text = String.ofList middle) ∧
    (∀ first second, source.Visits first → source.Visits second → first.offset ≤ second.offset →
      ∃ steps, Cursor.advance^[steps] first = second ∧
        cursor.slice? first.offset second.offset = some (String.ofList (first.consumes steps))) ∧
    (∀ first second third, source.Visits first → source.Visits second → source.Visits third →
      first.offset ≤ second.offset → second.offset ≤ third.offset →
      ∃ left right, cursor.slice? first.offset second.offset = some left ∧
        cursor.slice? second.offset third.offset = some right ∧
        cursor.slice? first.offset third.offset = some (left ++ right)) ∧
    ∀ calls, ((TokenStream.ofCursor cursor).after calls).call?
      = some ((TokenStream.ofCursor cursor).after calls).call := by
  refine ⟨?_, ?_, ?_, TokenStream.call?_after visited⟩
  · intro start stop inside
    exact ⟨visited.slice?_isSome_iff inside, fun text => visited.slice?_eq_some_iff inside⟩
  · exact fun first second earlier later ordered => visited.slice?_offsets earlier later ordered
  · exact fun first second third earlier middle later ordered further =>
      visited.slice?_append earlier middle later ordered further

theorem slice?_exact_inside_character :
    ∃ source : SourceText, source.text = "aé;" ∧ source.Visits source.cursor ∧
      ¬source.HasPlace 2 ∧ source.cursor.slice? 1 2 = none ∧
      source.cursor.slice? 1 3 = some "é" ∧
      (∃ left right, source.cursor.slice? 0 1 = some left ∧
        source.cursor.slice? 1 3 = some right ∧
        source.cursor.slice? 0 3 = some (left ++ right)) ∧
      ((TokenStream.ofCursor source.cursor).after 1).call?
        = some ((TokenStream.ofCursor source.cursor).after 1).call := by
  let source : SourceText := ⟨⟨0⟩, "aé;", by decide⟩
  have visited : ∀ count, source.Visits (Cursor.advance^[count] source.cursor) :=
    source.visits_iterate
  obtain ⟨cuts, _, appends, calls⟩ := slice?_exact source source.cursor (visited 0)
  have refused : source.cursor.slice? 1 2 = none := by decide +kernel
  have place : source.HasPlace 1 := ⟨['a'], ['é', ';'], by decide, by decide⟩
  refine ⟨source, rfl, visited 0, ?_, refused, ?_, ?_, calls 1⟩
  · intro inside
    have cut := (cuts 1 2 (by decide)).1.mpr ⟨by decide, place, inside⟩
    rw [refused] at cut
    cases cut
  · exact ((cuts 1 3 (by decide)).2 "é").mpr
      ⟨['a'], ['é'], [';'], by decide, by decide, by decide, by decide⟩
  · have stands : (Cursor.advance^[1] source.cursor).offset = 1 := by decide +kernel
    have further : (Cursor.advance^[2] source.cursor).offset = 3 := by decide +kernel
    have joined := appends _ _ _ (visited 0) (visited 1) (visited 2) (Nat.zero_le _)
      (by rw [stands, further]; decide)
    rwa [stands, further] at joined

end SourceText

end FrontEnd
