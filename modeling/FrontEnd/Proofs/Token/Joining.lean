import FrontEnd.Proofs.Token.Tiling

/-! Sources that are put one behind the other. Where no word runs over the seam, the tokens of the
whole are those of its parts, the later ones moved behind the end of the earlier part. -/

namespace FrontEnd

theorem toUInt32_add (left right : Nat) :
    (left + right).toUInt32 = left.toUInt32 + right.toUInt32 :=
  UInt32.ofNat_add left right

theorem toUInt32_succ_sub_one (number : Nat) : (number + 1).toUInt32 - 1 = number.toUInt32 :=
  (congrArg (· - 1) (toUInt32_add number 1)).trans (UInt32.add_sub_cancel number.toUInt32 1)

namespace Location

theorem following_after (location : Location) (path : PathId) (before : List Char) :
    location.following (after path before)
      = ⟨path, location.line + (before.count '\n').toUInt32,
        if location.line = 1 then
          location.column + (before.reverse.takeWhile (· ≠ '\n')).length.toUInt32
        else location.column,
        location.offset + (before.map Char.utf8Size).sum.toUInt32⟩ := by
  have moved (origin : Nat) (place : UInt32) :
      (origin + 1).toUInt32 + place - 1 = place + origin.toUInt32 := by
    rw [Nat.add_comm, toUInt32_add, UInt32.add_assoc, UInt32.add_comm]
    exact (UInt32.add_sub_cancel _ _).trans (UInt32.add_comm _ _)
  simp only [following, after, moved]
  rw [UInt32.add_comm location.offset]

theorem line_after_eq_one_iff (path : PathId) {text : List Char} (limit : text.length ≤ sourceLimit) :
    (after path text).line = 1 ↔ '\n' ∉ text := by
  have newlines := text.count_le_length (a := '\n')
  have bound : sourceLimit < 2 ^ 32 := by decide
  rw [after, UInt32.ofNat_eq_iff_mod_eq_toNat, ← List.count_eq_zero]
  have one : (1 : UInt32).toNat = 1 := rfl
  omega

theorem length_lastLine_append (first second : List Char) :
    ((first ++ second).reverse.takeWhile (· ≠ '\n')).length
      = (second.reverse.takeWhile (· ≠ '\n')).length
        + if '\n' ∈ second then 0 else (first.reverse.takeWhile (· ≠ '\n')).length := by
  rw [List.reverse_append]
  by_cases newline : '\n' ∈ second
  · have ends : ¬(second.reverse.takeWhile (· ≠ '\n')).length = second.reverse.length := by
      intro same
      have whole := (second.reverse.takeWhile_prefix (· ≠ '\n')).eq_of_length same
      have inline := List.takeWhile_eq_self_iff.mp whole _ (List.mem_reverse.mpr newline)
      simp at inline
    rw [if_pos newline, List.takeWhile_append, if_neg ends, Nat.add_zero]
  · have inline : ∀ character ∈ second.reverse, decide (character ≠ '\n') = true := by
      intro character listed
      rw [List.mem_reverse] at listed
      exact decide_eq_true fun same => newline (same ▸ listed)
    rw [if_neg newline, List.takeWhile_append_of_pos inline, List.length_append,
      List.takeWhile_eq_self_iff.mpr inline]

theorem after_append (path other : PathId) (first second : List Char)
    (limit : second.length ≤ sourceLimit) :
    after path (first ++ second) = (after other second).following (after path first) := by
  have line : ((first ++ second).count '\n' + 1).toUInt32
      = (second.count '\n' + 1).toUInt32 + (first.count '\n').toUInt32 := by
    rw [List.count_append, ← toUInt32_add, Nat.add_assoc, Nat.add_comm]
  have column : (((first ++ second).reverse.takeWhile (· ≠ '\n')).length + 1).toUInt32
      = if (after other second).line = 1 then
          ((second.reverse.takeWhile (· ≠ '\n')).length + 1).toUInt32
            + (first.reverse.takeWhile (· ≠ '\n')).length.toUInt32
        else ((second.reverse.takeWhile (· ≠ '\n')).length + 1).toUInt32 := by
    have inline := line_after_eq_one_iff other limit
    rw [length_lastLine_append]
    by_cases newline : '\n' ∈ second
    · rw [if_pos newline, if_neg fun same => inline.mp same newline, Nat.add_zero]
    · rw [if_neg newline, if_pos (inline.mpr newline), ← toUInt32_add, Nat.add_right_comm]
  have offset : ((first ++ second).map Char.utf8Size).sum.toUInt32
      = (second.map Char.utf8Size).sum.toUInt32 + (first.map Char.utf8Size).sum.toUInt32 := by
    rw [List.map_append, List.sum_append, toUInt32_add, UInt32.add_comm]
  rw [following_after, after, line, column, offset]
  rfl

end Location

def Token.following (token : Token) (finish : Location) : Token :=
  { token with location := token.location.following finish }

def LexError.following (error : LexError) (finish : Location) : LexError :=
  { error with location := error.location.following finish }

theorem tokenAt_append (path other : PathId) (first : List Char) {before : List Char}
    (limit : before.length ≤ sourceLimit) (kind : TokenKind) (segment : List Char) :
    tokenAt path (first ++ before) kind segment
      = (tokenAt other before kind segment).following (Location.after path first) := by
  rw [tokenAt, Location.after_append path other first before limit]
  rfl

theorem lexemeTokens_following (path other : PathId) (first : List Char) {before : List Char}
    {parts : List (List Char)} (limit : (before ++ parts.flatten).length ≤ sourceLimit) :
    lexemeTokens path (first ++ before) parts
      = (lexemeTokens other before parts).map (·.following (Location.after path first)) := by
  induction parts generalizing before with
  | nil => rfl
  | cons segment rest ih =>
      rw [List.flatten_cons, ← List.append_assoc] at limit
      have later := ih limit
      rw [← List.append_assoc] at later
      rw [lexemeTokens, lexemeTokens]
      cases lexemeKind? segment with
      | none => exact later
      | some kind =>
          have short : before.length ≤ sourceLimit := by
            simp only [List.length_append] at limit
            omega
          exact congrArg₂ List.cons (tokenAt_append path other first short kind segment) later

theorem lexemeTokens_append (path : PathId) (before : List Char) (clean rest : List (List Char)) :
    lexemeTokens path before (clean ++ rest)
      = lexemeTokens path before clean ++ lexemeTokens path (before ++ clean.flatten) rest := by
  induction clean generalizing before with
  | nil => simp [lexemeTokens]
  | cons segment clean ih =>
      have later := ih (before ++ segment)
      rw [List.append_assoc] at later
      rw [List.cons_append, lexemeTokens, lexemeTokens, List.flatten_cons]
      cases lexemeKind? segment with
      | none => exact later
      | some kind => exact congrArg (List.cons _) later

theorem segments_append_of_apart {first second : List Char}
    (apart : ∀ left ∈ first.getLast?, ∀ right ∈ second.head?,
      (isWordCharacter left && isWordCharacter right) = false) :
    segments (first ++ second) = segments first ++ segments second :=
  List.splitBy_append apart

theorem firstOffence?_append (before : List Char) {clean : List (List Char)}
    (harmless : ∀ segment ∈ clean, offence? segment = none) (rest : List (List Char)) :
    firstOffence? before (clean ++ rest) = firstOffence? (before ++ clean.flatten) rest := by
  induction clean generalizing before with
  | nil => rw [List.nil_append, List.flatten_nil, List.append_nil]
  | cons segment clean ih =>
      have later := ih (before ++ segment) fun other listed =>
        harmless other (List.mem_cons_of_mem _ listed)
      rw [List.cons_append, firstOffence?, harmless segment List.mem_cons_self, List.flatten_cons,
        ← List.append_assoc]
      exact later

theorem firstOffence?_append_left (first before : List Char) (parts : List (List Char)) :
    firstOffence? (first ++ before) parts
      = (firstOffence? before parts).map fun offence => (first ++ offence.1, offence.2) := by
  induction parts generalizing before with
  | nil => rfl
  | cons segment rest ih =>
      rw [firstOffence?, firstOffence?]
      cases offence? segment with
      | some kind => rfl
      | none =>
          have later := ih (before ++ segment)
          rwa [← List.append_assoc] at later

theorem leftmostOffence?_append {first second : List Char} (nowhere : leftmostOffence? first = none)
    (apart : ∀ left ∈ first.getLast?, ∀ right ∈ second.head?,
      (isWordCharacter left && isWordCharacter right) = false) :
    leftmostOffence? (first ++ second)
      = (leftmostOffence? second).map fun offence => (first ++ offence.1, offence.2) := by
  have harmless := leftmostOffence?_eq_none_iff.mp nowhere
  have later := firstOffence?_append_left first [] (segments second)
  rw [List.append_nil] at later
  rw [leftmostOffence?, segments_append_of_apart apart, firstOffence?_append [] harmless,
    List.nil_append, segments_flatten, later, leftmostOffence?]

namespace SourceText

variable {source : SourceText} {tokens : List Token}

/-- The tokens that are delivered from a source and stand in it. A semicolon that was added and
the end token stand behind its last byte. -/
def sourceTokens (source : SourceText) : List Token :=
  (source.cursor.tokenize Receiver.collector #[]).state.toList.filter fun token =>
    token.start < source.length

theorem delivered_of_tokens (accepted : source.tokens = .ok tokens) :
    (source.cursor.tokenize Receiver.collector #[]).state.toList = tokens := by
  rw [SourceText.tokens] at accepted
  cases result : (source.cursor.tokenize Receiver.collector #[]).result with
  | error error => simp [result, Except.map] at accepted
  | ok _ => simpa [result, Except.map] using accepted

theorem filter_lexemeTokens {before rest : List Char} (whole : before ++ rest = source.text.toList)
    (harmless : ∀ segment ∈ segments before, offence? segment = none) :
    (lexemeTokens source.path [] (segments before)).filter (fun token => token.start < source.length)
      = lexemeTokens source.path [] (segments before) := by
  have start : BlankBetween source.bytes 0 ([] : List Char).utf8Encode.size :=
    .refl (Nat.zero_le _)
  have tiles := source.tiles_lexemeTokens before harmless [] rest 0 whole start
  have inside : before.utf8Encode.size ≤ source.length := size_le_size_bytes whole
  rw [List.filter_eq_self]
  intro token listed
  have behind := tiles.start_lt token listed
  rw [List.nil_append] at behind
  exact decide_eq_true (by omega)

theorem filter_closingTokens (source : SourceText) (lastKind : Option TokenKind) :
    (closingTokens source.path lastKind source.text.toList).filter
      (fun token => token.start < source.length) = [] := by
  have length : source.text.toList.utf8Encode.size = source.length := by
    rw [← source.bytes_eq]
    rfl
  rw [List.filter_eq_nil_iff]
  intro token listed
  rw [Token.start, location_of_mem_closingTokens listed, offset_after (List.append_nil _), length]
  simp

theorem sourceTokens_of_harmless (nowhere : leftmostOffence? source.text.toList = none) :
    source.sourceTokens = lexemeTokens source.path [] (segments source.text.toList) := by
  rw [sourceTokens, delivered_of_tokens (tokens_of_harmless nowhere), List.filter_append,
    filter_lexemeTokens (List.append_nil _) (leftmostOffence?_eq_none_iff.mp nowhere),
    filter_closingTokens, List.append_nil]

theorem sourceTokens_of_offence {before : List Char} {kind : LexErrorKind}
    (found : leftmostOffence? source.text.toList = some (before, kind)) :
    source.sourceTokens = lexemeTokens source.path [] (segments before) := by
  obtain ⟨_, _, _, harmless, _⟩ := segments_of_leftmostOffence? found
  obtain ⟨rest, whole⟩ := prefix_of_leftmostOffence? found
  rw [sourceTokens, (tokens_of_offence found).2, filter_lexemeTokens whole harmless]

def followedBy (first second : SourceText)
    (fits : (first.text ++ second.text).utf8ByteSize ≤ sourceLimit) : SourceText :=
  ⟨first.path, first.text ++ second.text, fits⟩

theorem text_followedBy {first second : SourceText}
    (fits : (first.text ++ second.text).utf8ByteSize ≤ sourceLimit) :
    (first.followedBy second fits).text.toList = first.text.toList ++ second.text.toList :=
  String.toList_append

def finish (source : SourceText) : Location := (source.cursor.eatWhile fun _ => true).position

theorem finish_eq (source : SourceText) :
    source.finish = Location.after source.path source.text.toList := by
  have ended := (Cursor.divides_start source).eatWhile fun _ => true
  rw [finish, ended.position_eq, List.nil_append, List.takeWhile_eq_self_iff.mpr fun _ _ => rfl]

theorem following_finish (source : SourceText) (location : Location) :
    location.following source.finish
      = ⟨source.path, location.line + (source.text.toList.count '\n').toUInt32,
        if location.line = 1 then location.column + (source.finish.column - 1) else location.column,
        location.offset + source.length.toUInt32⟩ := by
  have column : source.finish.column - 1
      = (source.text.toList.reverse.takeWhile (· ≠ '\n')).length.toUInt32 := by
    rw [finish_eq]
    exact toUInt32_succ_sub_one _
  rw [column, finish_eq, Location.following_after, source.length_eq_sum]

section Seam

variable {first second : SourceText}
variable (apart : ∀ left ∈ first.text.toList.getLast?, ∀ right ∈ second.text.toList.head?,
  (isWordCharacter left && isWordCharacter right) = false)
include apart

theorem lexemeTokens_seam {before : List Char} (within : before <+: second.text.toList) :
    lexemeTokens first.path [] (segments (first.text.toList ++ before))
      = lexemeTokens first.path [] (segments first.text.toList)
        ++ (lexemeTokens second.path [] (segments before)).map (·.following first.finish) := by
  obtain ⟨rest, whole⟩ := within
  have seam : ∀ left ∈ first.text.toList.getLast?, ∀ right ∈ before.head?,
      (isWordCharacter left && isWordCharacter right) = false := by
    intro left last right head
    obtain ⟨tail, rfl⟩ := List.head?_eq_some_iff.mp head
    apply apart left last right
    rw [← whole]
    rfl
  have moved : lexemeTokens first.path (first.text.toList ++ []) (segments before)
      = (lexemeTokens second.path [] (segments before)).map (·.following first.finish) := by
    rw [finish_eq]
    apply lexemeTokens_following
    rw [List.nil_append, segments_flatten]
    exact length_le whole
  rw [List.append_nil] at moved
  rw [segments_append_of_apart seam, lexemeTokens_append, List.nil_append, segments_flatten, moved]

variable (fits : (first.text ++ second.text).utf8ByteSize ≤ sourceLimit)
variable (nowhere : leftmostOffence? first.text.toList = none)
include nowhere

theorem leftmostOffence?_followedBy :
    leftmostOffence? (first.followedBy second fits).text.toList
      = (leftmostOffence? second.text.toList).map fun offence =>
          (first.text.toList ++ offence.1, offence.2) := by
  rw [text_followedBy, leftmostOffence?_append nowhere apart]

theorem sourceTokens_followedBy :
    (first.followedBy second fits).sourceTokens
      = first.sourceTokens ++ second.sourceTokens.map (·.following first.finish) := by
  have offences := leftmostOffence?_followedBy apart fits nowhere
  rw [sourceTokens_of_harmless nowhere]
  cases found : leftmostOffence? second.text.toList with
  | none =>
      rw [found] at offences
      rw [sourceTokens_of_harmless offences, sourceTokens_of_harmless found, text_followedBy]
      exact lexemeTokens_seam apart List.prefix_rfl
  | some offence =>
      rw [found] at offences
      rw [sourceTokens_of_offence offences, sourceTokens_of_offence found]
      exact lexemeTokens_seam apart (prefix_of_leftmostOffence? found)

theorem tokens_followedBy_of_error {error : LexError} (refused : second.tokens = .error error) :
    (first.followedBy second fits).tokens = .error (error.following first.finish) := by
  have offences := leftmostOffence?_followedBy apart fits nowhere
  cases found : leftmostOffence? second.text.toList with
  | none =>
      rw [tokens_of_harmless found] at refused
      cases refused
  | some offence =>
      rw [found] at offences
      rw [(tokens_of_offence found).1] at refused
      obtain ⟨rest, whole⟩ := prefix_of_leftmostOffence? found
      have moved := Location.after_append first.path second.path first.text.toList _ (length_le whole)
      cases refused
      rw [(tokens_of_offence offences).1, LexError.following, finish_eq, ← moved]
      rfl

theorem tokens_followedBy_of_ok {tokens : List Token} (accepted : second.tokens = .ok tokens) :
    (first.followedBy second fits).tokens
      = .ok ((first.followedBy second fits).sourceTokens
        ++ closingTokens first.path
          ((first.followedBy second fits).sourceTokens.getLast?.map Token.kind)
          (first.followedBy second fits).text.toList) := by
  have offences := leftmostOffence?_followedBy apart fits nowhere
  rw [leftmostOffence?_of_tokens accepted] at offences
  rw [sourceTokens_of_harmless offences, tokens_of_harmless offences]
  rfl

end Seam

/-- Behind a source that is accepted, with no word over the seam, another one is read as it is
alone, but for the locations: they are moved by the bytes and the newlines of the first source,
and on the first line by its last column. The semicolon at the end is that of the whole. -/
theorem tokens_followedBy (first second : SourceText)
    (fits : (first.text ++ second.text).utf8ByteSize ≤ sourceLimit)
    (accepted : ∃ tokens, first.tokens = .ok tokens)
    (apart : ∀ left ∈ first.text.toList.getLast?, ∀ right ∈ second.text.toList.head?,
      (isWordCharacter left && isWordCharacter right) = false) :
    (first.followedBy second fits).sourceTokens
        = first.sourceTokens ++ second.sourceTokens.map (·.following first.finish) ∧
    (∀ error, second.tokens = .error error →
      (first.followedBy second fits).tokens = .error (error.following first.finish)) ∧
    (∀ tokens, second.tokens = .ok tokens →
      (first.followedBy second fits).tokens
        = .ok ((first.followedBy second fits).sourceTokens
          ++ closingTokens first.path
            ((first.followedBy second fits).sourceTokens.getLast?.map Token.kind)
            (first.followedBy second fits).text.toList)) ∧
    ∀ location : Location, location.following first.finish
      = ⟨first.path, location.line + (first.text.toList.count '\n').toUInt32,
        if location.line = 1 then location.column + (first.finish.column - 1) else location.column,
        location.offset + first.length.toUInt32⟩ := by
  obtain ⟨_, taken⟩ := accepted
  have nowhere := leftmostOffence?_of_tokens taken
  refine ⟨sourceTokens_followedBy apart fits nowhere, ?_, ?_, first.following_finish⟩
  · exact fun error refused => tokens_followedBy_of_error apart fits nowhere refused
  · exact fun tokens read => tokens_followedBy_of_ok apart fits nowhere read

theorem tokens_followedBy_split_literal :
    let first : SourceText := ⟨⟨0⟩, "a\nb", by decide⟩
    let refused : SourceText := ⟨⟨1⟩, " 0x", by decide⟩
    let accepted : SourceText := ⟨⟨1⟩, "(\n)", by decide⟩
    (∃ fits, (first.followedBy refused fits).tokens
      = .error ⟨.invalidLiteral "0x", ⟨⟨0⟩, 2, 3, 4⟩⟩) ∧
    ∃ fits, (first.followedBy accepted fits).tokens
      = .ok [⟨.identifier, "a", ⟨⟨0⟩, 1, 1, 0⟩⟩, ⟨.identifier, "b", ⟨⟨0⟩, 2, 1, 2⟩⟩,
        ⟨.leftParen, "(", ⟨⟨0⟩, 2, 2, 3⟩⟩, ⟨.rightParen, ")", ⟨⟨0⟩, 3, 1, 5⟩⟩,
        ⟨.semicolon, ";", ⟨⟨0⟩, 3, 2, 6⟩⟩, ⟨.endOfStream, "\x00", ⟨⟨0⟩, 3, 2, 6⟩⟩] := by
  intro first refused accepted
  have read : ∃ tokens, first.tokens = .ok tokens := ⟨_, tokens_of_harmless (by decide)⟩
  constructor
  · have fits : (first.text ++ refused.text).utf8ByteSize ≤ sourceLimit := by decide
    have apart : ∀ left ∈ "a\nb".toList.getLast?, ∀ right ∈ " 0x".toList.head?,
        (isWordCharacter left && isWordCharacter right) = false := by
      rintro _ ⟨⟩ _ ⟨⟩
      rfl
    have found : leftmostOffence? refused.text.toList = some ([' '], .invalidLiteral "0x") := by
      decide
    obtain ⟨-, joined, -, -⟩ := tokens_followedBy first refused fits read apart
    refine ⟨fits, (joined _ (tokens_of_offence found).1).trans ?_⟩
    rw [LexError.following, finish_eq]
    decide
  · have fits : (first.text ++ accepted.text).utf8ByteSize ≤ sourceLimit := by decide
    have apart : ∀ left ∈ "a\nb".toList.getLast?, ∀ right ∈ "(\n)".toList.head?,
        (isWordCharacter left && isWordCharacter right) = false := by
      rintro _ ⟨⟩ _ ⟨⟩
      rfl
    have nowhere : leftmostOffence? accepted.text.toList = none := by decide
    obtain ⟨source, -, joined, -⟩ := tokens_followedBy first accepted fits read apart
    refine ⟨fits, (joined _ (tokens_of_harmless nowhere)).trans ?_⟩
    rw [source, text_followedBy, sourceTokens_of_harmless (by decide),
      sourceTokens_of_harmless nowhere, finish_eq]
    decide

end SourceText

end FrontEnd
