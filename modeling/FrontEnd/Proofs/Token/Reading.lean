import FrontEnd.Proofs.Token.Scan
import FrontEnd.Token.Stream

/-! What a token stream yields, read off the segments of the text ahead of its cursor. Lexemes
become tokens, blanks are skipped, and an offence ends the reading. -/

namespace FrontEnd

def tokenAt (path : PathId) (before : List Char) (kind : TokenKind) (segment : List Char) : Token :=
  ⟨kind, String.ofList segment, Location.after path before⟩

/-- The tokens behind the last lexeme of a text: a semicolon where a statement was left open,
and the end token. -/
def closingTokens (path : PathId) (lastKind : Option TokenKind) (text : List Char) : List Token :=
  (if lastKind.any TokenKind.endsStatement then [tokenAt path text .semicolon [';']] else [])
    ++ [tokenAt path text .endOfStream [Cursor.sentinel]]

theorem location_of_mem_closingTokens {path : PathId} {lastKind : Option TokenKind}
    {text : List Char} {token : Token} (listed : token ∈ closingTokens path lastKind text) :
    token.location = Location.after path text := by
  rw [closingTokens] at listed
  rcases List.mem_append.mp listed with terminator | last
  · split at terminator
    · rw [List.mem_singleton.mp terminator]
      rfl
    · cases terminator
  · rw [List.mem_singleton.mp last]
    rfl

def readFrom (path : PathId) (lastKind : Option TokenKind) (before : List Char) :
    List (List Char) → List (Except LexError Token)
  | [] => (closingTokens path lastKind before).map .ok
  | segment :: rest =>
      match offence? segment with
      | some kind => [.error ⟨kind, Location.after path before⟩]
      | none =>
          match lexemeKind? segment with
          | some kind =>
              .ok (tokenAt path before kind segment)
                :: readFrom path (some kind) (before ++ segment) rest
          | none => readFrom path lastKind (before ++ segment) rest

def lexemeTokens (path : PathId) (before : List Char) : List (List Char) → List Token
  | [] => []
  | segment :: rest =>
      match lexemeKind? segment with
      | some kind =>
          tokenAt path before kind segment :: lexemeTokens path (before ++ segment) rest
      | none => lexemeTokens path (before ++ segment) rest

theorem readFrom_append {clean : List (List Char)}
    (harmless : ∀ segment ∈ clean, offence? segment = none) (path : PathId)
    (lastKind : Option TokenKind) (before : List Char) (rest : List (List Char)) :
    readFrom path lastKind before (clean ++ rest)
      = (lexemeTokens path before clean).map .ok
        ++ readFrom path (((lexemeTokens path before clean).getLast?.map Token.kind).or lastKind)
          (before ++ clean.flatten) rest := by
  induction clean generalizing lastKind before with
  | nil => simp [lexemeTokens]
  | cons segment clean ih =>
      have later := ih (fun other listed => harmless other (List.mem_cons_of_mem _ listed))
      rw [List.cons_append, readFrom, harmless segment List.mem_cons_self, lexemeTokens]
      cases spelled : lexemeKind? segment with
      | none => simp [later]
      | some kind =>
          cases tokens : lexemeTokens path (before ++ segment) clean <;>
            simp [later, tokens, tokenAt, List.getLast?_cons]

namespace TokenStream

theorem items_eq (stream : TokenStream) :
    stream.items = match stream.next? with
      | none => []
      | some (item, after) => item :: after.items := by
  rw [items]
  split <;> simp_all

theorem items_done {stream : TokenStream} (done : stream.phase = .done) : stream.items = [] := by
  rw [items_eq, next?, done]

theorem eatWhitespace_eq_self {cursor : Cursor}
    (quiet : cursor.isAtEnd = true ∨ isWhitespace cursor.peek = false) :
    cursor.eatWhitespace = cursor := by
  rw [Cursor.eatWhitespace, Cursor.eatWhile]
  rcases quiet with ended | solid
  · simp [ended]
  · simp [solid]

theorem next?_advance_of_blank {cursor : Cursor} {lastKind : Option TokenKind}
    (inside : cursor.isAtEnd = false) (blank : isWhitespace cursor.peek = true) :
    next? ⟨cursor, .scanning, lastKind⟩ = next? ⟨cursor.advance, .scanning, lastKind⟩ := by
  have skipped : cursor.eatWhitespace = cursor.advance.eatWhitespace := by
    rw [Cursor.eatWhitespace, Cursor.eatWhile]
    simp [inside, blank, Cursor.eatWhitespace]
  simp only [next?, skipped]

theorem next?_of_token {cursor stop : Cursor} {token : Token} (lastKind : Option TokenKind)
    (inside : cursor.isAtEnd = false) (solid : isWhitespace cursor.peek = false)
    (scanned : cursor.scanToken = (.ok token, stop)) :
    next? ⟨cursor, .scanning, lastKind⟩
      = some (.ok token, ⟨stop, .scanning, some token.kind⟩) := by
  simp [next?, eatWhitespace_eq_self (.inr solid), inside, scanned]

theorem next?_of_error {cursor stop : Cursor} {error : LexError} (lastKind : Option TokenKind)
    (inside : cursor.isAtEnd = false) (solid : isWhitespace cursor.peek = false)
    (scanned : cursor.scanToken = (.error error, stop)) :
    next? ⟨cursor, .scanning, lastKind⟩ = some (.error error, ⟨stop, .done, lastKind⟩) := by
  simp [next?, eatWhitespace_eq_self (.inr solid), inside, scanned]

variable {source : SourceText} {cursor : Cursor} {before : List Char}

theorem endToken_eq {ahead : List Char} (divides : cursor.Divides source before ahead) :
    endToken cursor = tokenAt source.path before .endOfStream [Cursor.sentinel] := by
  rw [endToken, tokenAt, divides.sentinelText_eq, divides.position_eq]
  rfl

theorem terminator_eq {ahead : List Char} (divides : cursor.Divides source before ahead) :
    terminator cursor = tokenAt source.path before .semicolon [';'] := by
  rw [terminator, tokenAt, divides.position_eq]

theorem items_at_end (divides : cursor.Divides source before []) (lastKind : Option TokenKind) :
    items ⟨cursor, .scanning, lastKind⟩
      = (closingTokens source.path lastKind before).map .ok := by
  have ended : cursor.isAtEnd = true := divides.isAtEnd_eq
  have stays := eatWhitespace_eq_self (.inl ended)
  have closing := endToken_eq divides
  rw [items_eq]
  by_cases open_ : lastKind.any TokenKind.endsStatement = true
  · have ending : items ⟨cursor, .ending, some .semicolon⟩ = [.ok (endToken cursor)] := by
      rw [items_eq]
      simp [next?, items_done]
    simp [next?, stays, ended, open_, ending, closing, terminator_eq divides, closingTokens]
  · simp [next?, stays, ended, open_, closing, closingTokens, items_done]

/-- A stream yields what is read from the text ahead of its cursor. -/
theorem items_eq_readFrom (source : SourceText) (ahead : List Char) :
    ∀ (before : List Char) (cursor : Cursor) (lastKind : Option TokenKind),
      cursor.Divides source before ahead →
        items ⟨cursor, .scanning, lastKind⟩
          = readFrom source.path lastKind before (segments ahead) := by
  induction ahead using segmentwise with
  | nil =>
      intro before cursor lastKind divides
      rw [segments_nil, readFrom, items_at_end divides]
  | segment segment rest leads ih =>
      intro before cursor lastKind divides
      obtain ⟨first, others, segment_eq⟩ := List.exists_cons_of_ne_nil leads.ne_nil
      have inside : cursor.isAtEnd = false := by
        rw [divides.isAtEnd_eq, segment_eq]
        rfl
      have peek : cursor.peek = first := by
        rw [divides.peek_eq, segment_eq]
        rfl
      rw [leads.segments_append, readFrom, items_eq]
      rcases leads.trichotomy with ⟨character, rfl, blank⟩ | ⟨kind, found⟩ | ⟨kind, offends⟩
      · obtain ⟨harmless, unspelled⟩ := blank_of_isWhitespace blank
        rw [harmless, unspelled, next?_advance_of_blank inside]
        · rw [← items_eq]
          exact ih _ _ _ divides.advance
        · obtain ⟨rfl, _⟩ := List.cons.inj segment_eq
          rwa [peek]
      · have solid : isWhitespace cursor.peek = false := by
          by_contra blank
          rw [peek, Bool.not_eq_false] at blank
          subst segment_eq
          simp [(leads.blank_of_isWhitespace blank).2] at found
        obtain ⟨stop, reached, scanned⟩ := divides.scanToken_of_lexeme leads found
        rw [next?_of_token lastKind inside solid scanned, offence?_eq_none_of_lexemeKind? found,
          found, divides.position_eq]
        exact congrArg _ (ih _ _ _ reached)
      · have solid : isWhitespace cursor.peek = false := by
          by_contra blank
          rw [peek, Bool.not_eq_false] at blank
          subst segment_eq
          simp [(leads.blank_of_isWhitespace blank).1] at offends
        obtain ⟨stop, scanned⟩ := divides.scanToken_of_offence leads offends
        rw [next?_of_error lastKind inside solid scanned, offends, divides.position_eq]
        simp [items_done]

theorem items_of_harmless {ahead : List Char} (divides : cursor.Divides source before ahead)
    (nowhere : leftmostOffence? ahead = none) :
    (ofCursor cursor).items =
      (lexemeTokens source.path before (segments ahead)
        ++ closingTokens source.path
          ((lexemeTokens source.path before (segments ahead)).getLast?.map Token.kind)
          (before ++ ahead)).map .ok := by
  have read := items_eq_readFrom source ahead before cursor none divides
  have parts := readFrom_append (leftmostOffence?_eq_none_iff.mp nowhere) source.path none before []
  rw [List.append_nil, readFrom, segments_flatten] at parts
  rw [ofCursor, read, parts]
  simp

theorem items_of_offence {ahead passed : List Char} {kind : LexErrorKind}
    (divides : cursor.Divides source before ahead)
    (found : leftmostOffence? ahead = some (passed, kind)) :
    (ofCursor cursor).items =
      (lexemeTokens source.path before (segments passed)).map .ok
        ++ [.error ⟨kind, Location.after source.path (before ++ passed)⟩] := by
  obtain ⟨segment, rest, split, harmless, offends⟩ := segments_of_leftmostOffence? found
  rw [ofCursor, items_eq_readFrom source ahead before cursor none divides, split,
    readFrom_append harmless, segments_flatten, readFrom, offends]

end TokenStream

end FrontEnd
