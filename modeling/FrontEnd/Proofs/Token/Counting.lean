import FrontEnd.Proofs.Source.Counting
import FrontEnd.Proofs.Token.Order

/-! How far the locations of what a stream yields are exact. What is scanned from a source stands in
front of a character, where every number of a location is; only a semicolon and an end token that
are added behind a source may stand where a cursor has counted too far. -/

namespace FrontEnd

namespace TokenStream

variable {source : SourceText} {cursor : Cursor} {before ahead : List Char}
variable {item : Except LexError Token}

def IsAdded (item : Except LexError Token) (place : Cursor) : Prop :=
  item = .ok (terminator place) ∨ item = .ok (endToken place)

theorem isAdded_of_mem_closingTokens (ends : cursor.Divides source before [])
    {lastKind : Option TokenKind} {token : Token}
    (listed : token ∈ closingTokens source.path lastKind before) : IsAdded (.ok token) cursor := by
  rw [closingTokens, ← terminator_eq ends, ← endToken_eq ends] at listed
  rcases List.mem_append.mp listed with closing | last
  · split at closing
    · exact .inl (congrArg _ (List.mem_singleton.mp closing))
    · cases closing
  · exact .inr (congrArg _ (List.mem_singleton.mp last))

theorem offset_lt_of_mem_lexemeTokens {passed rest : List Char}
    (divides : cursor.Divides source before (passed ++ rest))
    (harmless : ∀ segment ∈ segments passed, offence? segment = none) {token : Token}
    (listed : token ∈ lexemeTokens source.path before (segments passed)) :
    token.location.offset.toNat < source.length := by
  have tiles := SourceText.tiles_of_divides divides harmless
  exact Nat.lt_of_lt_of_le (tiles.start_lt token listed) tiles.bounds.2

theorem offset_lt_or_isAdded (divides : cursor.Divides source before ahead)
    (listed : item ∈ (ofCursor cursor).items) :
    (itemLocation item).offset.toNat < source.length ∨
      ∃ place, place.Divides source source.text.toList [] ∧ IsAdded item place := by
  cases found : leftmostOffence? ahead with
  | none =>
      have ends := Cursor.divides_iterate_advance source source.text.toList [] (List.append_nil _)
      have before_end : cursor.Divides source before (ahead ++ []) := by rwa [List.append_nil]
      have harmless := leftmostOffence?_eq_none_iff.mp found
      rw [items_of_harmless divides found, List.mem_map] at listed
      obtain ⟨token, member, rfl⟩ := listed
      rcases List.mem_append.mp member with scanned | closing
      · exact .inl (offset_lt_of_mem_lexemeTokens before_end harmless scanned)
      · rw [divides.whole] at closing
        exact .inr ⟨_, ends, isAdded_of_mem_closingTokens ends closing⟩
  | some offence =>
      obtain ⟨passed, kind⟩ := offence
      obtain ⟨_, _, _, harmless, _⟩ := segments_of_leftmostOffence? found
      obtain ⟨rest, rfl⟩ := prefix_of_leftmostOffence? found
      cases item with
      | ok token =>
          have scanned : token ∈ lexemeTokens source.path before (segments passed) := by
            simpa [items_of_offence divides found] using listed
          exact .inl (offset_lt_of_mem_lexemeTokens divides harmless scanned)
      | error error =>
          obtain ⟨place, visited, location, inside⟩ := exists_place_of_error divides listed
          obtain ⟨_, _, here⟩ := SourceText.visits_iff_exists_divides.mp visited
          rw [Cursor.isAtEnd, decide_eq_false_iff_not, here.length] at inside
          left
          rw [itemLocation, location, visited.offset_position]
          exact Nat.lt_of_not_le inside

theorem exists_exact_place_of_item (divides : cursor.Divides source before ahead)
    (listed : item ∈ (ofCursor cursor).items) :
    ∃ place, source.Visits place ∧ itemLocation item = place.position ∧
      (place.IsExact ∨ (source.IsFullLine ∨ source.IsFullOfNewlines) ∧ IsAdded item place) := by
  rcases offset_lt_or_isAdded divides listed with inside | ⟨place, ends, added⟩
  · obtain ⟨place, visited, location⟩ := exists_place_of_item divides listed
    refine ⟨place, visited, location, .inl ?_⟩
    obtain ⟨passed, rest, here⟩ := SourceText.visits_iff_exists_divides.mp visited
    rw [location, visited.offset_position] at inside
    refine here.isExact_iff_not.mpr ?_
    rintro ⟨rfl, _⟩
    have ended : place.isAtEnd = true := here.isAtEnd_eq
    rw [Cursor.isAtEnd, decide_eq_true_eq, here.length] at ended
    exact Nat.not_le_of_gt inside ended
  · have visited := SourceText.visits_iff_exists_divides.mpr ⟨_, _, ends⟩
    refine ⟨place, visited, by rcases added with rfl | rfl <;> rfl, ?_⟩
    by_cases exact : place.IsExact
    · exact .inl exact
    · rw [ends.isExact_iff_not, not_not] at exact
      exact .inr ⟨exact.2, added⟩

end TokenStream

namespace SourceText

/-- A cursor counts bytes, lines and columns exactly, and its position gives these numbers in 32
bits as they are, but for one place: behind a source of the largest size that is one line of single
bytes, or newlines only, the column or the line is one too large and wraps around to zero. No other
step of a cursor has an addition that wraps, and the location of everything a stream yields is exact
but for a semicolon and an end token that are added behind such a source. -/
theorem counters_exact (source : SourceText) {cursor : Cursor} (visited : source.Visits cursor) :
    (∃ before ahead, before ++ ahead = source.text.toList ∧
      cursor.offset = (before.map Char.utf8Size).sum ∧ cursor.line = before.count '\n' + 1 ∧
      cursor.column = (before.reverse.takeWhile (· ≠ '\n')).length + 1) ∧
    (cursor.offset ≤ sourceLimit ∧ cursor.position.offset.toNat = cursor.offset) ∧
    (cursor.IsExact ↔ cursor.line ≤ sourceLimit ∧ cursor.column ≤ sourceLimit) ∧
    (cursor.IsExact ↔ ¬(cursor.isAtEnd = true ∧ (source.IsFullLine ∨ source.IsFullOfNewlines))) ∧
    (cursor.isAtEnd = true → source.IsFullLine →
      cursor.line = 1 ∧ cursor.column = sourceLimit + 1 ∧
        cursor.position = ⟨source.path, 1, 0, sourceLimit.toUInt32⟩) ∧
    (cursor.isAtEnd = true → source.IsFullOfNewlines →
      cursor.line = sourceLimit + 1 ∧ cursor.column = 1 ∧
        cursor.position = ⟨source.path, 0, 1, sourceLimit.toUInt32⟩) ∧
    (cursor.isAtEnd = false →
      cursor.advance.position = cursor.position.past cursor.peek ∧
        (cursor.position.HasRoom cursor.peek ↔ cursor.advance.IsExact)) ∧
    ∀ item ∈ (TokenStream.ofCursor cursor).items, ∃ place, source.Visits place ∧
      itemLocation item = place.position ∧
        (place.IsExact ∨
          (source.IsFullLine ∨ source.IsFullOfNewlines) ∧ TokenStream.IsAdded item place) := by
  obtain ⟨before, ahead, divides⟩ := visits_iff_exists_divides.mp visited
  have ends : cursor.isAtEnd = true ↔ ahead = [] := by rw [divides.isAtEnd_eq, List.isEmpty_iff]
  refine ⟨⟨before, ahead, divides.whole, divides.offset_eq_sum, divides.line_eq, divides.column_eq⟩,
    ⟨Nat.le_trans divides.offset_le source.size_le, visited.offset_position⟩, divides.isExact_iff,
    by rw [ends, divides.isExact_iff_not], ?_, ?_, ?_,
    fun item => TokenStream.exists_exact_place_of_item divides⟩
  · intro ended full
    obtain rfl := ends.mp ended
    exact divides.position_of_isFullLine full
  · intro ended full
    obtain rfl := ends.mp ended
    exact divides.position_of_isFullOfNewlines full
  · intro inside
    refine ⟨Cursor.position_advance inside, ?_⟩
    cases ahead with
    | nil => rw [ends.mpr rfl] at inside; cases inside
    | cons character rest =>
        have shown : cursor.peek = character := divides.peek_eq
        rw [shown, divides.hasRoom_iff]

theorem counters_exact_full_line :
    ∃ cursor, (blanks ⟨0⟩ sourceLimit le_rfl).Visits cursor ∧ cursor.isAtEnd = true ∧
      ¬cursor.IsExact ∧ cursor.position = ⟨⟨0⟩, 1, 0, 4294967295⟩ := by
  have full := isFullLine_blanks ⟨0⟩
  have ends := Cursor.divides_iterate_advance (blanks ⟨0⟩ sourceLimit le_rfl) _ [] (List.append_nil _)
  have visited := visits_iff_exists_divides.mpr ⟨_, _, ends⟩
  have ended := ends.isAtEnd_eq
  obtain ⟨-, -, -, exact_iff, line, -⟩ := counters_exact _ visited
  exact ⟨_, visited, ended, exact_iff.not.mpr (not_not_intro ⟨ended, .inl full⟩),
    (line ended full).2.2⟩

theorem column_wraps_around :
    let source := blanks ⟨0⟩ sourceLimit le_rfl
    let cursor := Cursor.advance^[sourceLimit] source.cursor
    source.Visits cursor ∧ ¬cursor.column ≤ sourceLimit ∧
      (TokenStream.ofCursor cursor).items = [.ok ⟨.endOfStream, "\x00", ⟨⟨0⟩, 1, 0, 4294967295⟩⟩] := by
  intro source cursor
  have full : source.IsFullLine := isFullLine_blanks ⟨0⟩
  have ends : cursor.Divides source source.text.toList [] := by
    have walked := Cursor.divides_iterate_advance source source.text.toList [] (List.append_nil _)
    rwa [String.length_toList, full.1] at walked
  obtain ⟨-, column, position⟩ := ends.position_of_isFullLine full
  refine ⟨source.visits_iterate sourceLimit, by rw [column]; exact Nat.not_succ_le_self _, ?_⟩
  have last : closingTokens source.path none source.text.toList = [TokenStream.endToken cursor] := by
    rw [TokenStream.endToken_eq ends]
    rfl
  rw [TokenStream.ofCursor, TokenStream.items_at_end ends, last, TokenStream.endToken,
    ends.sentinelText_eq, position]
  rfl

end SourceText

end FrontEnd
