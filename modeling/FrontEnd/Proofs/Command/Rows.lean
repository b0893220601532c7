import FrontEnd.Command.Lex
import FrontEnd.Proofs.Text.Plain
import FrontEnd.Proofs.Token.FirstOffence

/-! The line that is printed of a token. The scanner lets only plain characters into the text of a
token, so the text stands between the quotes as it is. -/

namespace FrontEnd

theorem isPlain_of_isWordCharacter {character : Char}
    (letter : isWordCharacter character = true) : Text.IsPlain character := by
  unfold isWordCharacter Char.isAlphanum Char.isAlpha Char.isUpper Char.isLower Char.isDigit at letter
  simp only [Bool.or_eq_true, Bool.and_eq_true, decide_eq_true_eq, beq_iff_eq, ge_iff_le,
    UInt32.le_iff_toNat_le] at letter
  rcases letter with letter | rfl
  · change ((65 ≤ character.toNat ∧ character.toNat ≤ 90) ∨
      97 ≤ character.toNat ∧ character.toNat ≤ 122) ∨
        48 ≤ character.toNat ∧ character.toNat ≤ 57 at letter
    refine ⟨show 32 < character.toNat by omega, show character.toNat ≤ 126 by omega, ?_, ?_⟩
    · rintro rfl
      have code : '\\'.toNat = 92 := rfl
      omega
    · rintro rfl
      have code : '"'.toNat = 34 := rfl
      omega
  · exact ⟨by decide, by decide, by decide, by decide⟩

theorem TokenKind.isPlain_of_ofPunctuation? {character : Char} {kind : TokenKind}
    (found : ofPunctuation? character = some kind) : Text.IsPlain character := by
  unfold ofPunctuation? at found
  split at found <;> cases found <;> exact ⟨by decide, by decide, by decide, by decide⟩

theorem TokenKind.isPlain_of_isSpelledBy {kind : TokenKind} {text : List Char}
    (spelled : kind.isSpelledBy text = true) : ∀ character ∈ text, Text.IsPlain character := by
  intro character listed
  rcases isSpelledBy_cases spelled with ⟨_, literal⟩ | ⟨_, identifier⟩ | ⟨mark, rfl, found⟩
  · have letters := List.all_eq_true.mp (all_isWordCharacter_of_isIntegerLiteral literal)
    exact isPlain_of_isWordCharacter (letters character listed)
  · have letters := List.all_eq_true.mp (all_isWordCharacter_of_isIdentifier identifier)
    exact isPlain_of_isWordCharacter (letters character listed)
  · rw [List.mem_singleton.mp listed]
    exact isPlain_of_ofPunctuation? found

structure TokenRow where
  line : Nat
  column : Nat
  kind : TokenKind
  text : String
  deriving DecidableEq

def Token.row (token : Token) : TokenRow :=
  ⟨token.location.line.toNat, token.location.column.toNat, token.kind, token.text⟩

namespace TokenRow

def shown (row : TokenRow) : String :=
  if row.kind = .endOfStream then "\\0" else row.text

/-- The line of a token, without the line break at its end. -/
def entry (row : TokenRow) : String :=
  toString row.line ++ ":" ++ toString row.column ++ " " ++ row.kind.name ++ " \"" ++ row.shown
    ++ "\""

structure IsLegible (row : TokenRow) : Prop where
  plain : row.kind ≠ .endOfStream → ∀ character ∈ row.text.toList, Text.IsPlain character
  ending : row.kind = .endOfStream → row.text = "\x00"

variable {row : TokenRow}

theorem IsLegible.quoteString_text (legible : row.IsLegible) :
    Text.quoteString row.text = "\"" ++ row.shown ++ "\"" := by
  by_cases last : row.kind = .endOfStream
  · rw [shown, if_pos last, legible.ending last]
    simp [Text.quoteString, String.foldl_eq_foldl_toList, Text.escape]
  · rw [shown, if_neg last, Text.quoteString_eq_of_plain (legible.plain last)]

end TokenRow

theorem Token.line_eq {token : Token} (legible : token.row.IsLegible) :
    token.line = token.row.entry ++ "\n" := by
  have quoted : Text.quoteString token.text = "\"" ++ token.row.shown ++ "\"" :=
    legible.quoteString_text
  have number (value : UInt32) : toString value = toString value.toNat := rfl
  rw [line, quoted, Location.display, number, number]
  refine String.toList_inj.mp ?_
  simp [TokenRow.entry, row]

theorem isLegible_of_mem_closingTokens {path : PathId} {lastKind : Option TokenKind}
    {text : List Char} {token : Token} (listed : token ∈ closingTokens path lastKind text) :
    token.row.IsLegible := by
  rw [closingTokens] at listed
  rcases List.mem_append.mp listed with terminator | last
  · split at terminator
    · rw [List.mem_singleton.mp terminator]
      have spelled : TokenKind.semicolon.isSpelledBy [';'] = true := by decide
      refine ⟨fun _ => ?_, TokenKind.noConfusion⟩
      simpa [Token.row, tokenAt] using TokenKind.isPlain_of_isSpelledBy spelled
    · cases terminator
  · rw [List.mem_singleton.mp last]
    exact ⟨fun other => absurd rfl other, fun _ => rfl⟩

theorem isLegible_of_mem_lexemeTokens {path : PathId} {before : List Char}
    {parts : List (List Char)} {token : Token} (listed : token ∈ lexemeTokens path before parts) :
    token.row.IsLegible := by
  have spelled := isSpelledBy_of_mem_lexemeTokens listed
  exact ⟨fun _ => TokenKind.isPlain_of_isSpelledBy spelled,
    fun last => absurd last (TokenKind.ne_endOfStream_of_isSpelledBy spelled)⟩

/-- Every token that a source yields, also in front of an error, has a text that shows as it is. -/
theorem SourceText.isLegible_of_mem_items {source : SourceText} {token : Token}
    (listed : .ok token ∈ (TokenStream.ofCursor source.cursor).items) : token.row.IsLegible := by
  cases found : leftmostOffence? source.text.toList with
  | none =>
      rw [TokenStream.items_of_harmless (Cursor.divides_start source) found, List.mem_map] at listed
      obtain ⟨_, member, ⟨⟩⟩ := listed
      rcases List.mem_append.mp member with written | added
      · exact isLegible_of_mem_lexemeTokens written
      · exact isLegible_of_mem_closingTokens added
  | some offence =>
      have written : token ∈ lexemeTokens source.path [] (segments offence.1) := by
        simpa [TokenStream.items_of_offence (Cursor.divides_start source) found] using listed
      exact isLegible_of_mem_lexemeTokens written

end FrontEnd
