import FrontEnd.Proofs.Token.Delivery

/-! Which texts are refused: those with an offence, for the offence furthest to the left. Until
then every lexeme has been delivered and nothing else. -/

namespace FrontEnd

theorem isSpelledBy_of_mem_lexemeTokens {path : PathId} {before : List Char}
    {parts : List (List Char)} {token : Token} (listed : token ∈ lexemeTokens path before parts) :
    token.kind.isSpelledBy token.text.toList = true := by
  induction parts generalizing before with
  | nil => cases listed
  | cons segment rest ih =>
      rw [lexemeTokens] at listed
      cases spelled : lexemeKind? segment with
      | none =>
          rw [spelled] at listed
          exact ih listed
      | some kind =>
          rw [spelled, List.mem_cons] at listed
          rcases listed with rfl | later
          · rw [tokenAt, String.toList_ofList]
            exact lexemeKind?_eq_some_iff.mp spelled
          · exact ih later

theorem kind_ne_endOfStream_of_mem_lexemeTokens {path : PathId} {before : List Char}
    {parts : List (List Char)} {token : Token} (listed : token ∈ lexemeTokens path before parts) :
    token.kind ≠ .endOfStream :=
  TokenKind.ne_endOfStream_of_isSpelledBy (isSpelledBy_of_mem_lexemeTokens listed)

theorem SourceText.tokens_of_offence {source : SourceText} {before : List Char}
    {kind : LexErrorKind} (found : leftmostOffence? source.text.toList = some (before, kind)) :
    source.tokens = .error ⟨kind, Location.after source.path before⟩ ∧
      (source.cursor.tokenize Receiver.collector #[]).state.toList
        = lexemeTokens source.path [] (segments before) :=
  tokens_of_items_error (TokenStream.items_of_offence (Cursor.divides_start source) found)

theorem SourceText.leftmostOffence?_of_tokens {source : SourceText} {tokens : List Token}
    (accepted : source.tokens = .ok tokens) : leftmostOffence? source.text.toList = none := by
  cases found : leftmostOffence? source.text.toList with
  | none => rfl
  | some offence =>
      rw [(tokens_of_offence found).1] at accepted
      cases accepted

theorem SourceText.tokens_of_harmless {source : SourceText}
    (nowhere : leftmostOffence? source.text.toList = none) :
    source.tokens = .ok (lexemeTokens source.path [] (segments source.text.toList)
      ++ closingTokens source.path
        ((lexemeTokens source.path [] (segments source.text.toList)).getLast?.map Token.kind)
        source.text.toList) :=
  tokens_of_items (TokenStream.items_of_harmless (Cursor.divides_start source) nowhere)

theorem SourceText.tokens_eq_error_iff (source : SourceText) :
    (∃ error, source.tokens = .error error) ↔
      ∃ segment ∈ segments source.text.toList, (offence? segment).isSome = true := by
  cases found : leftmostOffence? source.text.toList with
  | none =>
      have harmless := leftmostOffence?_eq_none_iff.mp found
      rw [tokens_of_harmless found]
      constructor
      · rintro ⟨_, impossible⟩
        cases impossible
      · rintro ⟨segment, listed, offends⟩
        rw [harmless segment listed] at offends
        cases offends
  | some offence =>
      obtain ⟨before, kind⟩ := offence
      obtain ⟨segment, rest, split, _, offends⟩ := segments_of_leftmostOffence? found
      constructor
      · intro _
        exact ⟨segment, by simp [split], by simp [offends]⟩
      · intro _
        exact ⟨_, (tokens_of_offence found).1⟩

/-- A source is refused exactly for the offence furthest to the left, at its first character,
and the tokens delivered before that are the lexemes before the offence. -/
theorem SourceText.tokens_eq_error_iff_leftmostOffence (source : SourceText) :
    ((∃ error, source.tokens = .error error) ↔
      ∃ segment ∈ segments source.text.toList, (offence? segment).isSome = true) ∧
    (∀ error, source.tokens = .error error ↔
      ∃ before kind, leftmostOffence? source.text.toList = some (before, kind) ∧
        error = ⟨kind, Location.after source.path before⟩) ∧
    ∀ before kind, leftmostOffence? source.text.toList = some (before, kind) →
      ∃ segment rest, segments source.text.toList = segments before ++ segment :: rest ∧
        offence? segment = some kind ∧ (∀ other ∈ segments before, offence? other = none) ∧
        (source.cursor.tokenize Receiver.collector #[]).state.toList
          = lexemeTokens source.path [] (segments before) ∧
        ∀ token ∈ lexemeTokens source.path [] (segments before), token.kind ≠ .endOfStream := by
  refine ⟨source.tokens_eq_error_iff, ?_, ?_⟩
  · intro error
    cases found : leftmostOffence? source.text.toList with
    | none => simp [tokens_of_harmless found]
    | some offence =>
        obtain ⟨before, kind⟩ := offence
        rw [(tokens_of_offence found).1]
        constructor
        · intro same
          exact ⟨before, kind, rfl, (Except.error.inj same).symm⟩
        · rintro ⟨_, _, same, rfl⟩
          cases same
          rfl
  · intro before kind found
    obtain ⟨segment, rest, split, harmless, offends⟩ := segments_of_leftmostOffence? found
    exact ⟨segment, rest, split, offends, harmless, (tokens_of_offence found).2,
      fun _ listed => kind_ne_endOfStream_of_mem_lexemeTokens listed⟩

theorem SourceText.tokens_of_foreign_digit :
    ∃ source : SourceText, source.text = "a;,.:=\n()[]\x7b\x7d 0x1g;" ∧
      source.tokens = .error ⟨.invalidLiteral "0x1g", ⟨source.path, 2, 8, 14⟩⟩ ∧
      (source.cursor.tokenize Receiver.collector #[]).state.toList
        = [⟨.identifier, "a", ⟨source.path, 1, 1, 0⟩⟩, ⟨.semicolon, ";", ⟨source.path, 1, 2, 1⟩⟩,
          ⟨.comma, ",", ⟨source.path, 1, 3, 2⟩⟩, ⟨.dot, ".", ⟨source.path, 1, 4, 3⟩⟩,
          ⟨.colon, ":", ⟨source.path, 1, 5, 4⟩⟩, ⟨.equal, "=", ⟨source.path, 1, 6, 5⟩⟩,
          ⟨.leftParen, "(", ⟨source.path, 2, 1, 7⟩⟩, ⟨.rightParen, ")", ⟨source.path, 2, 2, 8⟩⟩,
          ⟨.leftBracket, "[", ⟨source.path, 2, 3, 9⟩⟩, ⟨.rightBracket, "]", ⟨source.path, 2, 4, 10⟩⟩,
          ⟨.leftBrace, "\x7b", ⟨source.path, 2, 5, 11⟩⟩,
          ⟨.rightBrace, "\x7d", ⟨source.path, 2, 6, 12⟩⟩] := by
  have found : leftmostOffence? "a;,.:=\n()[]\x7b\x7d 0x1g;".toList
      = some ("a;,.:=\n()[]\x7b\x7d ".toList, .invalidLiteral "0x1g") := by
    decide
  obtain ⟨_, refused, before⟩ :=
    tokens_eq_error_iff_leftmostOffence ⟨⟨0⟩, "a;,.:=\n()[]\x7b\x7d 0x1g;", by decide⟩
  obtain ⟨_, _, _, _, _, delivered, _⟩ := before _ _ found
  exact ⟨_, rfl, (refused _).mpr ⟨_, _, found, by decide⟩, delivered.trans (by decide)⟩

end FrontEnd
